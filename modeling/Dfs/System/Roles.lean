import Dfs.Metadata.Traffic
import Dfs.Network.Senders
import Dfs.System.Producers
import Dfs.System.Tables

/-!
# Who becomes a storage node

The threads of a metadata node on its own network: the handlers of the network thread, the
producer, and the worker with its table of storage nodes. While a handler waits for a message
the other threads go on; the `script` says how, wait for wait.
-/

namespace Dfs

open Lib

/-- What the other threads do. -/
inductive NodeAct where
  | network (event : NetworkEvent)
  | produce

/-- What the worker thread shares with them. -/
structure NodeNetwork where
  network : NetworkState
  jobs : List NodeJob
  script : List (List NodeAct) := []
  /-- An exception has left the producer thread. -/
  ended : Bool := false

namespace NodeNetwork

/-- An operation that is not outstanding does not complete. -/
def act (n : NodeNetwork) : NodeAct → NodeNetwork
  | .network event =>
      match n.network.step event with
      | .error _ => n
      | .ok network => { n with network }
  | .produce =>
      match NodeJob.produce { messages := n.network.messageQueue, jobs := n.jobs } with
      | .error _ => { n with ended := true }
      | .ok producer => { n with network := { n.network with messageQueue := producer.messages }, jobs := producer.jobs }

def acts (n : NodeNetwork) (l : List NodeAct) : NodeNetwork := l.foldl act n

/-- The steps of the other threads during one wait. -/
def await (n : NodeNetwork) : NodeNetwork := acts { n with script := n.script.tail } (n.script.headD [])

def take (p : Message → Bool) (n : NodeNetwork) : Option Message × NodeNetwork :=
  match popIf p n.network.messageQueue with
  | (message, messageQueue) => (message, { n with network := { n.network with messageQueue } })

theorem take_accepts {p : Message → Bool} {n : NodeNetwork} {m : Message} (h : (n.take p).1 = some m) : p m = true :=
  List.find?_some h

instance : Network NodeNetwork where
  send node frame n := n.act (.network (.send node frame))
  receiveIf _ p n := n.await.take p
  receiveIf_accepts _ _ _ _ := take_accepts

end NodeNetwork

abbrev RunningNode := MetadataState NodeNetwork

inductive RunningEvent where
  | act (a : NodeAct)
  /-- The worker thread takes a job; `script` is what happens while it waits. -/
  | work (env : Env) (script : List (List NodeAct))
  | checkTimeouts (now : TimePoint)

namespace RunningNode

/-- The node that has loaded `store`. -/
def start (node : Endpoint) (seedNodes : List Endpoint) (store : MetadataStore) : RunningNode where
  worker := { store, storageNodes := ∅, pendingReads := ∅, pendingWrites := ∅, currentStorageRequestId := 0 }
  network := { network := .start node seedNodes, jobs := [] }

/-- The oldest job. -/
def work (env : Env) (script : List (List NodeAct)) (s : RunningNode) : Except Exn RunningNode :=
  match s.network.jobs with
  | [] => .ok s
  | .client event :: jobs =>
      match MetadataState.handle env event { s with network := { s.network with jobs, script } } with
      | (.error e, _) => .error e
      | (.ok _, s) => .ok s
  | .heartbeat sender :: jobs =>
      .ok { worker := s.worker.handleHeartbeat env.now sender, network := { s.network with jobs } }

/-- An exception in one thread ends them all. -/
def alive (s : RunningNode) : Except Exn RunningNode := if s.network.ended then .error .runtimeError else .ok s

def next (s : RunningNode) : RunningEvent → Except Exn RunningNode
  | .act a => alive { s with network := s.network.act a }
  | .work env script =>
      match s.work env script with
      | .error e => .error e
      | .ok s => s.alive
  | .checkTimeouts now => alive { s with worker := s.worker.checkHeartbeatTimeouts now }

end RunningNode

/-- A heartbeat is read from a peer that satisfies `P`. -/
def NodeAct.From (P : NodeIdentity → Prop) : NodeAct → Prop
  | .network (.frameRead _ remote (some frame)) => frame.header.type = .storageHeartbeat → P remote
  | _ => True

instance (P : NodeIdentity → Prop) [DecidablePred P] (a : NodeAct) : Decidable (a.From P) := by
  unfold NodeAct.From
  split <;> infer_instance

def RunningEvent.From (P : NodeIdentity → Prop) : RunningEvent → Prop
  | .act a => a.From P
  | .work _ script => ∀ acts ∈ script, ∀ a ∈ acts, a.From P
  | .checkTimeouts _ => True

instance (P : NodeIdentity → Prop) [DecidablePred P] (e : RunningEvent) : Decidable (e.From P) := by
  unfold RunningEvent.From
  split <;> infer_instance

namespace NodeNetwork

variable {P : NodeIdentity → Prop} {node : Endpoint} {n n' : NodeNetwork} {a : NodeAct}

/-- The id is that of a peer that satisfies `P`. -/
def Member (P : NodeIdentity → Prop) (n : NodeNetwork) (id : NodeId) : Prop :=
  ∃ sender : NodeIdentity, sender.id = id ∧ P sender ∧ n.network.Peer sender

/-- Every heartbeat on its way to the worker is from such a peer. -/
structure Sound (P : NodeIdentity → Prop) (node : Endpoint) (n : NodeNetwork) : Prop where
  reached : NetworkState.Reached node n.network
  queued : ∀ m ∈ n.network.messageQueue, m.header.type = .storageHeartbeat → P m.sender ∧ n.network.Peer m.sender
  jobs : ∀ sender, .heartbeat sender ∈ n.jobs → P sender ∧ n.network.Peer sender
  script : ∀ acts ∈ n.script, ∀ a ∈ acts, a.From P

/-- From `n` on the heartbeats stay sound, and the peers stay peers. -/
structure Onward (P : NodeIdentity → Prop) (node : Endpoint) (n n' : NodeNetwork) : Prop where
  sound : Sound P node n'
  peers : ∀ remote, n.network.Peer remote → n'.network.Peer remote

/-- Fewer messages, or the same. -/
theorem Sound.messages {messageQueue : List Message} (sound : Sound P node n) (fewer : messageQueue ⊆ n.network.messageQueue) :
    Sound P node { n with network := { n.network with messageQueue } } := by
  have reached := sound.reached
  refine ⟨⟨?_, reached.same, reached.good⟩, fun m mem => sound.queued m (fewer mem), sound.jobs, sound.script⟩
  exact ⟨reached.sound.phase, reached.sound.unused, reached.sound.registered⟩

theorem Sound.act (sound : Sound P node n) (honest : a.From P) : Onward P node n (n.act a) := by
  cases a with
  | network event =>
      rw [NodeNetwork.act]
      cases stepped : n.network.step event with
      | error e => exact ⟨sound, fun _ => id⟩
      | ok network =>
          have kept : ∀ {remote}, n.network.Peer remote → network.Peer remote :=
            NetworkState.step_peer sound.reached.sound stepped
          obtain ⟨queue, peers⟩ := NetworkState.step_messages sound.reached.sound stepped
          refine ⟨⟨sound.reached.step stepped, fun m mem heartbeat => ?_, fun sender mem => ?_, sound.script⟩, fun _ => kept⟩
          · dsimp only at mem ⊢
            rw [queue, List.mem_append, Option.mem_toList] at mem
            rcases mem with old | new
            · exact (sound.queued m old heartbeat).imp_right kept
            · refine ⟨?_, kept (peers m new)⟩
              unfold NetworkState.arrival at new
              split at new
              · split at new
                · cases new
                · cases new
                  exact honest heartbeat
              · cases new
          · exact (sound.jobs sender mem).imp_right kept
  | produce =>
      have fewer : n.network.messageQueue.eraseP NodeJob.takes ⊆ n.network.messageQueue := List.eraseP_subset
      simp only [NodeNetwork.act, NodeJob.produce, popIf]
      cases found : n.network.messageQueue.find? NodeJob.takes with
      | none => exact ⟨sound.messages fewer, fun _ => id⟩
      | some m =>
          dsimp only
          cases decoded : NodeJob.of m with
          | error e => exact ⟨⟨sound.reached, sound.queued, sound.jobs, sound.script⟩, fun _ => id⟩
          | ok job =>
              have left := sound.messages fewer
              refine ⟨⟨left.reached, left.queued, fun sender mem => ?_, left.script⟩, fun _ => id⟩
              rcases List.mem_append.1 mem with old | new
              · exact sound.jobs sender old
              · obtain rfl := Option.mem_toList.1 new
                obtain ⟨heartbeat, rfl⟩ := NodeJob.of_heartbeat.1 decoded
                exact sound.queued m (List.mem_of_find?_eq_some found) heartbeat

theorem Onward.trans {n'' : NodeNetwork} (first : Onward P node n n') (second : Onward P node n' n'') : Onward P node n n'' :=
  ⟨second.sound, fun remote peer => second.peers remote (first.peers remote peer)⟩

theorem Sound.acts {l : List NodeAct} (sound : Sound P node n) (honest : ∀ a ∈ l, a.From P) : Onward P node n (n.acts l) := by
  induction l generalizing n with
  | nil => exact ⟨sound, fun _ => id⟩
  | cons a l ih =>
      have first := sound.act (honest a List.mem_cons_self)
      exact first.trans (ih first.sound fun a' mem => honest a' (List.mem_cons_of_mem a mem))

theorem Sound.await (sound : Sound P node n) : Onward P node n n.await := by
  have rest : Sound P node { n with script := n.script.tail } :=
    ⟨sound.reached, sound.queued, sound.jobs, fun acts mem => sound.script acts (List.mem_of_mem_tail mem)⟩
  obtain ⟨sound', peers⟩ := rest.acts (l := n.script.headD []) fun a mem => by
    cases script : n.script with
    | nil =>
        rw [script] at mem
        cases mem
    | cons acts script' =>
        rw [script] at mem
        exact sound.script acts (script ▸ List.mem_cons_self) a mem
  exact ⟨sound', peers⟩

theorem Sound.receiveIf {timeout : Nat} {p : Message → Bool} (sound : Sound P node n) :
    Onward P node n (Network.receiveIf timeout p n).2 := by
  have waited := sound.await
  exact ⟨waited.sound.messages List.eraseP_subset, waited.peers⟩

theorem Sound.send {id : NodeId} {frame : Frame} (sound : Sound P node n) : Onward P node n (Network.send id frame n) :=
  sound.act trivial

/-- A handler leaves the heartbeats as they are. -/
theorem Sound.used {F : Frame → Prop} (sound : Sound P node n) (used : Network.Used F n n') : Onward P node n n' :=
  used.keeps (fun _ _ _ onward _ => onward.trans onward.sound.send) (fun _ _ _ onward => onward.trans onward.sound.receiveIf)
    ⟨sound, fun _ => id⟩

theorem Onward.member (onward : Onward P node n n') {id : NodeId} (member : n.Member P id) : n'.Member P id := by
  obtain ⟨sender, named, satisfies, peer⟩ := member
  exact ⟨sender, named, satisfies, onward.peers sender peer⟩

theorem Sound.member_named {id : NodeId} (sound : Sound P node n) (member : n.Member P id) : id ≠ [] := by
  obtain ⟨sender, rfl, -, c, below, known⟩ := member
  exact (sound.reached.good.admitted c below sender known).named

end NodeNetwork

namespace RunningNode

open NodeNetwork MetadataWorker MetadataState

variable {P : NodeIdentity → Prop} {node : Endpoint} {loaded : NodeId → Prop} {s s' : RunningNode} {e : RunningEvent}

/-- A replica is unbound, was loaded with its record, or is a peer that satisfies `P`. -/
def Placed (P : NodeIdentity → Prop) (loaded : NodeId → Prop) (n : NodeNetwork) (id : NodeId) : Prop :=
  id = [] ∨ loaded id ∨ n.Member P id

/-- What the worker knows of storage nodes goes back to heartbeats. -/
structure Sound (P : NodeIdentity → Prop) (node : Endpoint) (loaded : NodeId → Prop) (s : RunningNode) : Prop where
  network : NodeNetwork.Sound P node s.network
  known : System.Known (s.network.Member P) s.worker
  sessions : s.worker.SessionsSound
  placed : s.worker.All fun _ r => Placed P loaded s.network r.1 ∧ Placed P loaded s.network r.2

theorem Placed.mono {n n' : NodeNetwork} (onward : Onward P node n n') {id : NodeId} (placed : Placed P loaded n id) :
    Placed P loaded n' id :=
  placed.imp_right (·.imp_right onward.member)

/-- The worker stays as it is while the network goes on. -/
theorem Sound.onward {n' : NodeNetwork} (sound : s.Sound P node loaded) (onward : Onward P node s.network n') :
    Sound P node loaded { s with network := n' } :=
  ⟨onward.sound, fun id there => onward.member (sound.known id there), sound.sessions,
    fun x r names => (sound.placed x r names).imp (Placed.mono onward) (Placed.mono onward)⟩

theorem Sound.handled {env : Env} {event : ClientEvent} (sound : s.Sound P node loaded)
    (h : MetadataState.handle env event s = (.ok (), s')) : s'.Sound P node loaded := by
  have named : s.worker.Named := fun id available => sound.network.member_named (sound.known.available id available)
  have onward : Onward P node s.network s'.network := by
    obtain ⟨status, frame, s₁, handled, -, rfl⟩ := handle_handled h
    have asks : Asks (fun _ => True) (s.entered env).worker event := by
      cases event <;> simp [Asks]
    have used : Network.Used (fun _ => True) s.network s₁.network := handled_used (s := s.entered env) handled asks
    have asked := sound.network.used used
    exact asked.trans asked.sound.send
  have allows : s.worker.Allows env fun _ r => Placed P loaded s.network r.1 ∧ Placed P loaded s.network r.2 := by
    refine ⟨⟨.inl rfl, .inl rfl⟩, fun x r r' _ first second => ⟨.inr (.inr ?_), .inr (.inr ?_)⟩⟩
    · exact sound.known.available _ first
    · exact sound.known.available _ second
  refine ⟨onward.sound, fun id there => ?_, (handle_sessions sound.sessions named h).1, fun x r names => ?_⟩
  · exact onward.member (sound.known id ((handle_nodes h id).symm.trans there))
  · exact (handle_all sound.placed allows.admits h x r names).imp (Placed.mono onward) (Placed.mono onward)

theorem Sound.known_by {w : MetadataWorker} (sound : s.Sound P node loaded) (known : System.Known (s.network.Member P) w)
    (store : w.store = s.worker.store) (reads : w.pendingReads = s.worker.pendingReads)
    (writes : w.pendingWrites = s.worker.pendingWrites) : Sound P node loaded { s with worker := w } := by
  refine ⟨sound.network, known, ?_, fun x r names => sound.placed x r (names.same (congrArg _ store) writes reads)⟩
  have sessions := sound.sessions
  exact ⟨writes ▸ sessions.writes, reads ▸ sessions.reads, writes ▸ sessions.writesFilled, reads ▸ sessions.readsFilled⟩

theorem alive_ok (h : s.alive = .ok s') : s' = s := by
  rw [alive] at h
  split at h
  · cases h
  · cases h
    rfl

theorem Sound.work {env : Env} {script : List (List NodeAct)} (sound : s.Sound P node loaded)
    (honest : ∀ acts ∈ script, ∀ a ∈ acts, a.From P) (h : s.work env script = .ok s') : s'.Sound P node loaded := by
  have network := sound.network
  have taken : ∀ {job jobs}, s.network.jobs = job :: jobs →
      (Onward P node s.network { s.network with jobs, script }) ∧ Onward P node s.network { s.network with jobs } := by
    intro job jobs queued
    have rest : ∀ sender, .heartbeat sender ∈ jobs → P sender ∧ s.network.network.Peer sender := fun sender mem =>
      network.jobs sender (queued ▸ List.mem_cons_of_mem job mem)
    exact ⟨⟨⟨network.reached, network.queued, rest, honest⟩, fun _ => id⟩,
      ⟨⟨network.reached, network.queued, rest, network.script⟩, fun _ => id⟩⟩
  rw [RunningNode.work] at h
  split at h
  · cases h
    exact sound
  · rename_i event jobs queued
    split at h
    · cases h
    rename_i s₁ handled
    cases h
    exact (sound.onward (taken queued).1).handled handled
  · rename_i sender jobs queued
    cases h
    have heard := network.jobs sender (queued ▸ List.mem_cons_self)
    have left := sound.onward (taken queued).2
    refine left.known_by (fun id there => ?_) rfl rfl rfl
    rw [handleHeartbeat, Assoc.lookup_insert_ite] at there
    split at there
    · rename_i here
      exact ⟨sender, here.symm, heard.1, heard.2⟩
    · exact sound.known id there

theorem Sound.next (sound : s.Sound P node loaded) (honest : e.From P) (h : s.next e = .ok s') :
    s'.Sound P node loaded := by
  cases e with
  | act a =>
      rw [alive_ok h]
      exact sound.onward (sound.network.act honest)
  | work env script =>
      rw [RunningNode.next] at h
      split at h
      · cases h
      rename_i s₁ worked
      rw [alive_ok h]
      exact sound.work honest worked
  | checkTimeouts now =>
      rw [alive_ok h]
      refine sound.known_by (fun id there => ?_) rfl rfl rfl
      rw [checkHeartbeatTimeouts, Assoc.lookup_mapValues, Option.isSome_map] at there
      exact sound.known id there

theorem start_sound (node : Endpoint) (seedNodes : List Endpoint) (store : MetadataStore)
    (records : ∀ k m, store.data.lookup k = some m → loaded m.replicaLocations.1 ∧ loaded m.replicaLocations.2) :
    (start node seedNodes store).Sound P node loaded := by
  refine ⟨⟨NetworkState.start_reached node seedNodes, ?_, nofun, nofun⟩, fun id there => ?_, ?_, fun x r names => ?_⟩
  · have empty : (NetworkState.start node seedNodes).messageQueue = [] := by
      have all : ∀ (endpoints : List Endpoint) (n : NetworkState), n.messageQueue = [] →
          (endpoints.foldl (fun n endpoint => n.connect endpoint) n).messageQueue = [] := by
        intro endpoints
        induction endpoints with
        | nil => exact fun n none => none
        | cons endpoint endpoints ih => exact fun n none => ih _ none
      exact all _ (.initial node) rfl
    intro m mem
    rw [start, empty] at mem
    cases mem
  · simp [start] at there
  · exact System.Fresh.sound (s := { System.start with worker := (start node seedNodes store).worker }) ⟨rfl, rfl, rfl⟩
  · cases names with
    | record k m found => exact (records k m found).imp (.inr <| .inl ·) (.inr <| .inl ·)
    | write context write found => simp [start, findWrite, Nested.find] at found
    | read context read found => simp [start, findRead, Nested.find] at found

/-- Where every heartbeat comes from a peer with the role of a storage node, the table of storage nodes has only
such peers, and so does every record that the node has bound to replicas itself. -/
theorem storageNodes_storage {seedNodes : List Endpoint} {store : MetadataStore} {events : List RunningEvent}
    (h : run next (start node seedNodes store) events = .ok s)
    (honest : ∀ e ∈ events, e.From fun sender => sender.role = .storage) :
    (∀ id, (s.worker.storageNodes.lookup id).isSome = true → s.network.network.Peer ⟨id, .storage⟩) ∧
      ∀ k m, s.worker.store.data.lookup k = some m →
        ∀ replica, replica = m.replicaLocations.1 ∨ replica = m.replicaLocations.2 → replica ≠ [] →
          s.network.network.Peer ⟨replica, .storage⟩ ∨
            ∃ k₀ m₀, store.data.lookup k₀ = some m₀ ∧ (replica = m₀.replicaLocations.1 ∨ replica = m₀.replicaLocations.2) := by
  let loaded : NodeId → Prop := fun replica =>
    ∃ k₀ m₀, store.data.lookup k₀ = some m₀ ∧ (replica = m₀.replicaLocations.1 ∨ replica = m₀.replicaLocations.2)
  have start : (start node seedNodes store).Sound (fun sender => sender.role = .storage) node loaded :=
    start_sound node seedNodes store fun k m found => ⟨⟨k, m, found, .inl rfl⟩, ⟨k, m, found, .inr rfl⟩⟩
  have sound := run_keeps (fun _ _ e mem sound stepped => Sound.next sound (honest e mem) stepped) start h
  have storage : ∀ {id}, s.network.Member (fun sender => sender.role = .storage) id →
      s.network.network.Peer ⟨id, .storage⟩ := by
    rintro id ⟨⟨id', role⟩, rfl, satisfies, peer⟩
    obtain rfl : role = .storage := satisfies
    exact peer
  refine ⟨fun id there => storage (sound.known id there), fun k m found replica here bound => ?_⟩
  obtain ⟨first, second⟩ := sound.placed _ _ (.record k m found)
  have placed : Placed (fun sender => sender.role = .storage) loaded s.network replica := by
    rcases here with rfl | rfl
    · exact first
    · exact second
  rcases placed with unbound | old | member
  · exact absurd unbound bound
  · exact .inr old
  · exact .inl (storage member)

/-- The peer connects as connection `c` and sends a heartbeat, which reaches the worker. -/
def joins (c : ConnectionPtr) (peer : Endpoint) : List RunningEvent :=
  [.act (.network (.accepted false)), .act (.network (.helloWritten c true false)),
    .act (.network (.helloRead c (some (helloFrame peer)))),
    .act (.network (.frameRead c peer.identity (some ⟨⟨headerMagic, 0, .storageHeartbeat⟩, []⟩))), .act .produce, .work {} []]

theorem storageNodes_storage_joined : ∃ s : RunningNode,
    run next (start NetworkState.acceptingNode [] (.onTree .empty)) (joins 0 NetworkState.storagePeer) = .ok s ∧
      (s.worker.storageNodes.lookup [99]).isSome = true ∧ s.network.network.Peer ⟨[99], .storage⟩ := by
  obtain ⟨s, ran, known⟩ := exists_ok
    (r := run next (start NetworkState.acceptingNode [] (.onTree .empty)) (joins 0 NetworkState.storagePeer))
    (f := fun s => (s.worker.storageNodes.lookup [99]).isSome) (by decide +kernel)
  exact ⟨s, ran, known, (storageNodes_storage ran (by decide)).1 [99] known⟩

/-- Two clients send heartbeats, and one of them writes a file. -/
def clientsJoin : List RunningEvent :=
  joins 0 ⟨[99], .client, [], 0⟩ ++ joins 1 ⟨[100], .client, [], 0⟩ ++
    [.act (.network (.frameRead 0 ⟨[99], .client⟩ (some (ClientProtocol.encodeWriteFileRequest 1
        { path := [112], fileSize := 1, chunkCount := 1, context := System.fromClient 1 })))), .act .produce, .work {} []]

/-- The clients are taken for storage nodes, and the file is bound to them. -/
theorem clients_become_replicas : ∃ s : RunningNode,
    run next (start NetworkState.acceptingNode [] (.onTree .empty)) clientsJoin = .ok s ∧
      (s.worker.storageNodes.lookup [99]).isSome = true ∧
      (s.worker.store.data.lookup (MetadataStore.key [112])).map (·.replicaLocations) = some ([99], [100]) ∧
      ¬ s.network.network.Peer ⟨[99], .storage⟩ ∧ ¬ s.network.network.Peer ⟨[100], .storage⟩ := by
  obtain ⟨s, ran, holds⟩ := exists_ok
    (r := run next (start NetworkState.acceptingNode [] (.onTree .empty)) clientsJoin)
    (f := fun s => decide ((s.worker.storageNodes.lookup [99]).isSome = true ∧
      (s.worker.store.data.lookup (MetadataStore.key [112])).map (·.replicaLocations) = some ([99], [100]) ∧
      ¬ s.network.network.Peer ⟨[99], .storage⟩ ∧ ¬ s.network.network.Peer ⟨[100], .storage⟩)) (by decide +kernel)
  exact ⟨s, ran, of_decide_eq_true holds⟩

end RunningNode

end Dfs
