import Dfs.Lib.Run
import Dfs.Metadata.MetadataNode
import Dfs.Metadata.Recovery
import Dfs.Storage.StorageNode

/-!
# The metadata node among its storage nodes

A frame for a storage node waits on its connection until the node takes it; the reply waits
until it reaches the message queue of the metadata node. Both keep the number of the request
among all frames the metadata node has sent, so that it stays known which request a reply
belongs to. While a handler waits for a reply the storage nodes take steps of their own: the
`script` says which, wait for wait.
-/

namespace Dfs

open Lib

/-- One storage node and its connection to the metadata node. -/
structure Peer where
  worker : StorageWorker
  inbox : List (Nat × Frame)
  outbox : List (Nat × Frame)

/-- What happens on the side of the storage nodes and of the connections to them. -/
inductive Act where
  /-- A node handles its next request; the file calls turn out as listed. -/
  | serve (node : NodeId) (outcomes : List Outcome)
  /-- The next reply of a node reaches the message queue. -/
  | deliver (node : NodeId)
  | loseRequest (node : NodeId) (index : Nat)
  | loseReply (node : NodeId) (index : Nat)
  | restart (node : NodeId)
  /-- A node answers its next request with a frame of its own making. -/
  | forge (node : NodeId) (frame : Frame)

structure Cluster where
  self : NodeIdentity
  peers : Assoc NodeId Peer
  /-- The message queue of the metadata node, without what the job queue takes from it. -/
  queue : List (Nat × Message)
  /-- Every frame sent, in order. -/
  sent : List (NodeId × Frame)
  /-- The frames for other nodes than storage nodes. -/
  answers : List (NodeId × Frame)
  /-- Every message that `receiveIf` has returned. -/
  taken : List (Nat × Message)
  script : List (List Act)

namespace Cluster

/-- The node's next request handled by its worker. A message that is no job ends the process,
and a new one takes over. -/
def serve (self : NodeIdentity) (outcomes : List Outcome) (peer : Peer) : Peer :=
  match peer.inbox with
  | [] => peer
  | (tag, frame) :: inbox =>
      match StorageEvent.of (frame.from self) with
      | .error _ => { peer with worker := peer.worker.restart, inbox }
      | .ok event =>
          let w := { peer.worker with disk := peer.worker.disk.withOutcomes outcomes }
          let (reply, worker) := w.handle event
          { worker, inbox, outbox := peer.outbox ++ [(tag, reply)] }

def forge (frame : Frame) (peer : Peer) : Peer :=
  match peer.inbox with
  | [] => peer
  | (tag, _) :: inbox => { peer with inbox, outbox := peer.outbox ++ [(tag, frame)] }

/-- Change one storage node. -/
def modify (node : NodeId) (f : Peer → Peer) (c : Cluster) : Cluster :=
  match c.peers.lookup node with
  | none => c
  | some peer => { c with peers := c.peers.insert node (f peer) }

def deliver (node : NodeId) (c : Cluster) : Cluster :=
  match c.peers.lookup node with
  | none => c
  | some peer =>
      match peer.outbox with
      | [] => c
      | (tag, frame) :: outbox =>
          { c with
            peers := c.peers.insert node { peer with outbox }
            queue := c.queue ++ [(tag, frame.from ⟨node, .storage⟩)] }

def act (c : Cluster) : Act → Cluster
  | .serve node outcomes => c.modify node (serve c.self outcomes)
  | .deliver node => c.deliver node
  | .loseRequest node index => c.modify node fun peer => { peer with inbox := peer.inbox.eraseIdx index }
  | .loseReply node index => c.modify node fun peer => { peer with outbox := peer.outbox.eraseIdx index }
  | .restart node => c.modify node fun peer => { peer with worker := peer.worker.restart }
  | .forge node frame => c.modify node (forge frame)

def acts (c : Cluster) (l : List Act) : Cluster := l.foldl act c

def send (node : NodeId) (frame : Frame) (c : Cluster) : Cluster :=
  match c.peers.lookup node with
  | none => { c with sent := c.sent ++ [(node, frame)], answers := c.answers ++ [(node, frame)] }
  | some peer =>
      { c with
        sent := c.sent ++ [(node, frame)]
        peers := c.peers.insert node { peer with inbox := peer.inbox ++ [(c.sent.length, frame)] } }

/-- The steps of the other side during one wait. -/
def await (c : Cluster) : Cluster := acts { c with script := c.script.tail } (c.script.headD [])

/-- `pop_if` once the wait is over. -/
def take (p : Message → Bool) (c : Cluster) : Option Message × Cluster :=
  match popIf (fun e : Nat × Message => p e.2) c.queue with
  | (none, _) => (none, c)
  | (some (tag, message), queue) => (some message, { c with queue, taken := c.taken ++ [(tag, message)] })

theorem take_accepts {p : Message → Bool} {c : Cluster} {m : Message} (h : (c.take p).1 = some m) : p m = true := by
  unfold take popIf at h
  split at h
  · cases h
  · rename_i tag message queue found
    cases h
    exact List.find?_some (p := fun e : Nat × Message => p e.2) (Prod.mk.inj found).1

instance : Network Cluster where
  send := send
  receiveIf _ p c := c.await.take p
  receiveIf_accepts _ _ _ _ := take_accepts

/-! ## What was sent -/

variable (c : Cluster)

theorem modify_sent (node : NodeId) (f : Peer → Peer) : (c.modify node f).sent = c.sent := by
  unfold modify
  split <;> rfl

theorem deliver_sent (node : NodeId) : (c.deliver node).sent = c.sent := by
  unfold deliver
  split
  · rfl
  · split <;> rfl

theorem act_sent (a : Act) : (c.act a).sent = c.sent := by
  cases a with
  | deliver node => exact c.deliver_sent node
  | _ => exact c.modify_sent _ _

theorem acts_sent (l : List Act) : (c.acts l).sent = c.sent := by
  induction l generalizing c with
  | nil => rfl
  | cons a l ih => exact (ih _).trans (c.act_sent a)

theorem take_sent (p : Message → Bool) : (c.take p).2.sent = c.sent := by
  unfold take
  split <;> rfl

theorem receiveIf_sent (timeout : Nat) (p : Message → Bool) : (Network.receiveIf timeout p c).2.sent = c.sent :=
  (take_sent _ p).trans (acts_sent _ _)

theorem send_sent (node : NodeId) (frame : Frame) : (Network.send node frame c).sent = c.sent ++ [(node, frame)] := by
  simp only [Network.send, send]
  split <;> rfl

end Cluster

/-! ## Runs -/

abbrev System := MetadataState Cluster

inductive SystemEvent where
  /-- The worker thread handles a client request; `script` is what happens while it waits. -/
  | request (event : ClientEvent) (env : Env) (script : List (List Act))
  | storage (acts : List Act)
  | heartbeat (now : TimePoint) (sender : NodeIdentity)
  | checkTimeouts (now : TimePoint)

namespace System

/-- What happens while the next handler waits. -/
def scripted (s : System) (script : List (List Act)) : System := { s with network := { s.network with script } }

/-- The state in which a handler starts. -/
def prepared (s : System) (env : Env) (script : List (List Act)) : System :=
  { s.scripted script with worker := s.worker.withOutcomes env.outcomes }

@[simp] theorem prepared_sent (s : System) (env : Env) (script : List (List Act)) :
    (s.prepared env script).network.sent = s.network.sent := rfl

/-- One step; a handler that lets an exception out ends the run. -/
def next (s : System) : SystemEvent → Except Exn System
  | .request event env script =>
      match MetadataState.handle env event (s.scripted script) with
      | (.error e, _) => .error e
      | (.ok _, s) => .ok s
  | .storage acts => .ok { s with network := s.network.acts acts }
  | .heartbeat now sender => .ok { s with worker := s.worker.handleHeartbeat now sender }
  | .checkTimeouts now => .ok { s with worker := s.worker.checkHeartbeatTimeouts now }

def run (s : System) (events : List SystemEvent) : Except Exn System := Lib.run next s events

/-! ## A small cluster -/

def newPeer : Peer := { worker := { disk := (MetadataStore.onTree .empty).disk, nextChunks := ∅ }, inbox := [], outbox := [] }

/-- A metadata node with an empty store, and the storage nodes `"a"` and `"b"`. -/
def start : System :=
  { worker :=
      { store := .onTree .empty, storageNodes := ∅, pendingReads := ∅, pendingWrites := ∅, currentStorageRequestId := 0 }
    network :=
      { self := ⟨[109], .metadata⟩, peers := ((∅ : Assoc NodeId Peer).insert [97] newPeer).insert [98] newPeer
        queue := [], sent := [], answers := [], taken := [], script := [] } }

theorem lookup_start {node : NodeId} {peer : Peer} (found : start.network.peers.lookup node = some peer) : peer = newPeer := by
  simp only [start, Assoc.lookup_insert_ite] at found
  split at found
  · exact (Option.some.inj found).symm
  · split at found
    · exact (Option.some.inj found).symm
    · simp at found

/-- Both storage nodes show up. -/
def joined : List SystemEvent := [.heartbeat ⟨0⟩ ⟨[97], .storage⟩, .heartbeat ⟨0⟩ ⟨[98], .storage⟩]

/-- Both nodes handle their next request, and the replies arrive. -/
def served : List Act := [.serve [97] [], .serve [98] [], .deliver [97], .deliver [98]]

/-- Request `id` of client `"c"`. -/
def fromClient (id : UInt64) : RequestContext := ⟨id, ⟨[99], .client⟩⟩

end System

end Dfs
