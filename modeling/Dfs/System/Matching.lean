import Dfs.System.Trace
import Dfs.Metadata.WorkerSteps

/-!
# Replies and the requests of a handler

A handler takes from the message queue what its filter accepts. The filters for `GET` and
`DELETE` carry ids that the worker itself counts; the one for `PUT` carries the id that a
client chose, and clients all count from 1.
-/

namespace Dfs

open Lib

/-! ## What the filters recognise -/

section Filters

variable {self s : NodeIdentity} {request reply : Frame} {id : UInt64} {job : StorageJob} {sender : NodeId}
  {p : BinaryReader → Except Exn Bool}

theorem answers_accepted (answers : Answers self request reply)
    (h : Rpc.makeMessageIs id job .response sender p (reply.from s) = true) :
    s.id = sender ∧ ∃ event, StorageEvent.of (request.from self) = .ok event ∧ event.job = job ∧
      event.context.requestId = id := by
  obtain ⟨event, w, read, rfl⟩ := answers
  obtain ⟨body, made, -⟩ := handle_reply w event
  rw [made] at h
  obtain ⟨sender, same, same', -⟩ := Rpc.makeMessageIs_accepts h
  exact ⟨sender, event, read, same', same⟩

/-- A `PUT` reply that a filter accepts answers a `PUT` with the filter's request id and chunk. -/
theorem answers_put {chunkIndex : UInt32} (answers : Answers self request reply)
    (h : Rpc.makeMessageIs id StorageJob.put .response sender (Rpc.matchChunk chunkIndex) (reply.from s) = true) :
    ∃ put, StorageEvent.of (request.from self) = .ok (.put put) ∧ put.context.requestId = id ∧
      put.chunkIndex = chunkIndex := by
  obtain ⟨event, w, read, rfl⟩ := answers
  obtain ⟨body, made, chunk⟩ := handle_reply w event
  rw [made] at h
  obtain ⟨-, same, same', -, r, holds, matched⟩ := Rpc.makeMessageIs_accepts h
  cases event with
  | put put =>
      obtain ⟨rest, rfl⟩ := chunk put rfl
      obtain ⟨r', first, -⟩ := LawfulSerial.read_write put.chunkIndex r _ trivial holds
      refine ⟨put, read, same, ?_⟩
      simpa [Rpc.matchChunk, first, bind, Except.bind, pure, Except.pure] using matched
  | get get => cases same'
  | delete delete => cases same'

end Filters

namespace Cluster

variable {base c : Cluster} {limit : UInt64}

/-- The requests with ids of the worker's own have got ids up to `limit`. -/
def Numbered (c : Cluster) (limit : UInt64) : Prop :=
  ∀ e ∈ c.sent, ∀ event, StorageEvent.of (e.2.from c.self) = .ok event → event.job ≠ .put →
    event.context.requestId ≤ limit

theorem Since.receiveIf {p : Message → Bool} {timeout : Nat} (since : Since base c)
    (recent : ∀ c', Since base c' → ∀ tag message, (tag, message) ∈ c'.queue → p message = true →
      base.sent.length ≤ tag) :
    Since base (Network.receiveIf timeout p c).2 :=
  since.await.take (recent _ since.await)

/-- What is known of a request in flight at `base`. -/
theorem Since.asked {tag : Nat} {message : Message} (since : Since base c) (old : tag < base.sent.length)
    (mem : (tag, message) ∈ c.queue) : base.Replies tag message := by
  obtain ⟨request, reply, asked, answers, same⟩ := since.traced.queue _ mem
  refine ⟨request, reply, ?_, since.self ▸ answers, same⟩
  obtain ⟨rest, split⟩ := since.sent
  rwa [← split, List.getElem?_append_left old] at asked

/-- No `PUT` for this request id and chunk is in flight. -/
def Clear (c : Cluster) (node : NodeId) (requestId : UInt64) (chunkIndex : UInt32) : Prop :=
  ∀ tag ∈ c.inFlight node, ∀ frame put, c.sent[tag]? = some (node, frame) →
    StorageEvent.of (frame.from c.self) = .ok (.put put) → put.context.requestId = requestId →
      put.chunkIndex ≠ chunkIndex

theorem Since.receivePut {node : NodeId} {requestId : UInt64} {chunkIndex : UInt32} (since : Since base c) (timeout : Nat)
    (clear : base.Clear node requestId chunkIndex) :
    Since base (Network.receiveIf timeout
      (Rpc.makeMessageIs requestId StorageJob.put .response node (Rpc.matchChunk chunkIndex)) c).2 := by
  refine since.receiveIf fun c' since' tag message mem accepted => ?_
  by_contra old
  obtain ⟨request, reply, asked, answers, same⟩ := since'.asked (Nat.lt_of_not_le old) mem
  rw [same] at accepted
  obtain ⟨sender, -⟩ := answers_accepted answers accepted
  obtain ⟨put, read, sameId, sameChunk⟩ := answers_put answers accepted
  rcases since'.flight node tag (mem_inFlight.2 (Or.inr ⟨message, mem, sender⟩)) with flight | recent
  · exact clear tag flight request put (sender ▸ asked) read sameId sameChunk
  · exact old recent

theorem Since.receiveOwn {id : UInt64} (since : Since base c) (timeout : Nat) (job : StorageJob) (node : NodeId)
    (p : BinaryReader → Except Exn Bool) (numbered : base.Numbered limit) (own : job ≠ .put) (new : limit < id) :
    Since base (Network.receiveIf timeout (Rpc.makeMessageIs id job .response node p) c).2 := by
  refine since.receiveIf fun c' since' tag message mem accepted => ?_
  by_contra old
  obtain ⟨request, reply, asked, answers, same⟩ := since'.asked (Nat.lt_of_not_le old) mem
  rw [same] at accepted
  obtain ⟨-, event, read, sameJob, sameId⟩ := answers_accepted answers accepted
  have bound := numbered _ (List.mem_of_getElem? asked) event read (sameJob ▸ own)
  rw [sameId] at bound
  exact absurd new (UInt64.not_lt.2 bound)

theorem Numbered.mono {limit' : UInt64} (numbered : c.Numbered limit) (le : limit ≤ limit') : c.Numbered limit' :=
  fun e mem event read own => UInt64.le_trans (numbered e mem event read own) le

theorem Numbered.send {node : NodeId} {frame : Frame} (numbered : c.Numbered limit)
    (new : ∀ event, StorageEvent.of (frame.from c.self) = .ok event → event.job ≠ .put →
      event.context.requestId ≤ limit) :
    (Network.send node frame c).Numbered limit := by
  have self : (Network.send node frame c).self = c.self := by
    simp only [Network.send, Cluster.send]
    split <;> rfl
  intro e mem event read own
  rw [c.send_sent] at mem
  rw [self] at read
  rcases List.mem_append.1 mem with mem | mem
  · exact numbered e mem event read own
  · rw [List.mem_singleton.1 mem] at read
    exact new event read own

theorem Numbered.receiveIf {timeout : Nat} {p : Message → Bool} (numbered : c.Numbered limit)
    (self : (Network.receiveIf timeout p c).2.self = c.self) : (Network.receiveIf timeout p c).2.Numbered limit := by
  intro e mem event read own
  rw [c.receiveIf_sent] at mem
  rw [self] at read
  exact numbered e mem event read own

end Cluster

namespace System

open Cluster MetadataState

variable {base s s' : System}

/-- A handler on its way: every reply it took was for a request of its own. -/
structure Tracks (base s : System) : Prop where
  since : Since base.network s.network
  numbered : s.network.Numbered s.worker.currentStorageRequestId
  counter : base.worker.currentStorageRequestId ≤ s.worker.currentStorageRequestId

theorem Tracks.same (tracks : Tracks base s) (network : s'.network = s.network)
    (counter : s'.worker.currentStorageRequestId = s.worker.currentStorageRequestId) : Tracks base s' :=
  ⟨network ▸ tracks.since, by rw [network, counter]; exact tracks.numbered, counter ▸ tracks.counter⟩

theorem Tracks.send (tracks : Tracks base s) (node : NodeId) (frame : Frame)
    (new : ∀ event, StorageEvent.of (frame.from s.network.self) = .ok event → event.job ≠ .put →
      event.context.requestId ≤ s.worker.currentStorageRequestId) : Tracks base (s.send node frame) :=
  ⟨tracks.since.send, tracks.numbered.send new, tracks.counter⟩

theorem Tracks.respond {context : RequestContext} {encode : UInt64 → Frame} (tracks : Tracks base s)
    (client : ∀ id event, StorageEvent.of ((encode id).from s.network.self) ≠ .ok event) :
    Tracks base (s.respond context encode) :=
  tracks.send _ _ fun event read => absurd read (client _ event)

/-- Only who sent the message matters of what was received. -/
theorem Tracks.receiveIf {p : Message → Bool} (tracks : Tracks base s)
    (since : Since base.network (Network.receiveIf storageRequestTimeout p s.network).2) :
    Tracks base (s.receiveIf p).2 :=
  ⟨since, tracks.numbered.receiveIf (since.self.trans tracks.since.self.symm), tracks.counter⟩

theorem toNat_next {n : UInt64} (room : n.toNat + 1 < 2 ^ 64) : (n + 1).toNat = n.toNat + 1 := by
  rw [UInt64.toNat_add]
  exact Nat.mod_eq_of_lt room

/-! ## The handlers that wait -/

theorem awaitPut_tracks {req : WriteChunkRequest} {replica : NodeId} {r : Except Exn Bool} (tracks : Tracks base s)
    (clear : base.network.Clear replica req.context.requestId req.chunkIndex) (h : s.awaitPut req replica = (r, s')) :
    Tracks base s' := by
  have received := tracks.receiveIf (tracks.since.receivePut storageRequestTimeout clear)
  unfold awaitPut at h
  split at h
  · rename_i found
    rw [found] at received
    cases h
    exact received
  · rename_i found
    rw [found] at received
    split at h <;> cases h
    · exact received
    · refine received.same rfl ?_
      simp only [MetadataWorker.setBytesLeft]
      split <;> rfl

theorem awaitPuts_tracks {req : WriteChunkRequest} {replicas : NodeId × NodeId} {r : Except Exn Bool}
    (tracks : Tracks base s) (first : base.network.Clear replicas.1 req.context.requestId req.chunkIndex)
    (second : base.network.Clear replicas.2 req.context.requestId req.chunkIndex)
    (h : s.awaitPuts req replicas = (r, s')) : Tracks base s' := by
  unfold awaitPuts at h
  split at h
  · rename_i waited
    cases h
    exact awaitPut_tracks tracks first waited
  · rename_i waited
    have tracks₁ := awaitPut_tracks tracks first waited
    split at h <;> rename_i waited₂ <;> cases h <;> exact awaitPut_tracks tracks₁ second waited₂

theorem fetchChunk_tracks {req : ReadChunkRequest} {objectId : Bytes} {expected : UInt32} {nodes : List NodeId}
    {r : Option Bytes} (tracks : Tracks base s) (numbered : base.network.Numbered base.worker.currentStorageRequestId)
    (room : s.worker.currentStorageRequestId.toNat + nodes.length < 2 ^ 64)
    (h : s.fetchChunk req objectId expected nodes = (r, s')) : Tracks base s' := by
  induction nodes generalizing s with
  | nil =>
      cases h
      exact tracks
  | cons node rest ih =>
      rw [List.length_cons] at room
      unfold fetchChunk at h
      split at h
      · exact ih tracks (by omega) h
      dsimp only at h
      have next := toNat_next (n := s.worker.currentStorageRequestId) (by omega)
      have up : s.worker.currentStorageRequestId ≤ s.worker.currentStorageRequestId + 1 :=
        UInt64.le_iff_toNat_le.2 (by omega)
      have new : base.worker.currentStorageRequestId < s.worker.currentStorageRequestId + 1 := by
        have counter := UInt64.le_iff_toNat_le.1 tracks.counter
        exact UInt64.lt_iff_toNat_lt.2 (by omega)
      have counted : Tracks base { s with worker :=
          { s.worker with currentStorageRequestId := s.worker.currentStorageRequestId + 1 } } :=
        ⟨tracks.since, tracks.numbered.mono up, UInt64.le_trans tracks.counter up⟩
      have asked := counted.send node (StorageProtocol.encodeGetRequest (s.worker.currentStorageRequestId + 1)
        { objectId, chunkIndex := req.chunkIndex, byteCount := expected, context := req.context })
        fun event read _ => by
          rw [(of_makeFrame read).2]
          exact UInt64.le_refl _
      have received := asked.receiveIf (asked.since.receiveOwn storageRequestTimeout .get node
        (Rpc.matchChunk req.chunkIndex) numbered (by decide) new)
      split at h
      · rename_i s₁ found
        have counter : s.worker.currentStorageRequestId + 1 = s₁.worker.currentStorageRequestId :=
          congrArg (fun x => x.2.worker.currentStorageRequestId) found
        rw [found] at received
        exact ih received (by rw [← counter]; omega) h
      · rename_i s₁ found
        have counter : s.worker.currentStorageRequestId + 1 = s₁.worker.currentStorageRequestId :=
          congrArg (fun x => x.2.worker.currentStorageRequestId) found
        rw [found] at received
        split at h
        · exact ih received (by rw [← counter]; omega) h
        · cases h
          exact received

theorem awaitDelete_tracks {id : UInt64} {replica : NodeId} (tracks : Tracks base s)
    (numbered : base.network.Numbered base.worker.currentStorageRequestId)
    (new : base.worker.currentStorageRequestId < id) : Tracks base (s.awaitDelete id replica).2 := by
  have received := tracks.receiveIf (tracks.since.receiveOwn storageRequestTimeout .delete replica
    Rpc.matchAnyBody numbered (by decide) new)
  unfold awaitDelete
  split
  · rename_i found
    rw [found] at received
    exact received
  · rename_i found
    rw [found] at received
    split <;> exact received

theorem onStore_tracks {α : Type} {f : MetadataStore → α × MetadataStore} (tracks : Tracks base s) :
    Tracks base (s.onStore f).2 :=
  ⟨tracks.since, tracks.numbered, tracks.counter⟩

theorem removeObject_tracks {req : RemoveRequest} {m : FileMetadata} {status : ClientStatus}
    (tracks : Tracks s s) (room : s.worker.currentStorageRequestId.toNat + 1 < 2 ^ 64)
    (h : s.removeObject req m = (status, s')) : Tracks s s' := by
  have next := toNat_next room
  have new : s.worker.currentStorageRequestId < s.worker.currentStorageRequestId + 1 :=
    UInt64.lt_iff_toNat_lt.2 (by omega)
  have up := UInt64.le_of_lt new
  have counted : Tracks s { s with worker :=
      { s.worker with currentStorageRequestId := s.worker.currentStorageRequestId + 1 } } :=
    ⟨tracks.since, tracks.numbered.mono up, up⟩
  have asked := fun (node : NodeId) {s' : System} (tracks' : Tracks s s')
      (counter : s'.worker.currentStorageRequestId = s.worker.currentStorageRequestId + 1) =>
    tracks'.send node (StorageProtocol.encodeDeleteRequest (s.worker.currentStorageRequestId + 1)
      { objectId := m.objId, context := req.context }) fun event read _ => by
        rw [(of_makeFrame read).2, counter]
        exact UInt64.le_refl _
  have both := asked m.replicaLocations.2 (asked m.replicaLocations.1 counted rfl) rfl
  unfold removeObject at h
  dsimp only at h
  split at h
  · cases h
    exact awaitDelete_tracks (awaitDelete_tracks both tracks.numbered new) tracks.numbered new
  · cases h
    exact onStore_tracks (awaitDelete_tracks (awaitDelete_tracks both tracks.numbered new) tracks.numbered new)

theorem remove_tracks {req : RemoveRequest} {status : ClientStatus} (tracks : Tracks s s)
    (room : s.worker.currentStorageRequestId.toNat + 1 < 2 ^ 64) (h : s.remove req = (status, s')) : Tracks s s' := by
  unfold remove at h
  split at h
  · cases h
    exact tracks
  split at h
  · cases h
    exact tracks.same rfl rfl
  · cases h
    exact tracks
  dsimp only at h
  split at h
  · cases h
    exact tracks
  split at h
  · cases h
    exact tracks.same rfl rfl
  split at h
  · exact removeObject_tracks tracks room h
  · cases h
    exact tracks

theorem readChunk_tracks {req : ReadChunkRequest} {answer : ClientStatus × Bytes} (tracks : Tracks s s)
    (room : s.worker.currentStorageRequestId.toNat + 2 < 2 ^ 64) (h : s.readChunk req = (answer, s')) : Tracks s s' := by
  unfold readChunk at h
  split at h
  · cases h
    exact tracks
  split at h
  · cases h
    exact tracks.same rfl rfl
  dsimp only at h
  split at h <;> rename_i fetched <;> cases h
  · exact (fetchChunk_tracks tracks tracks.numbered (by simpa using room) fetched).same rfl rfl
  · refine (fetchChunk_tracks tracks tracks.numbered (by simpa using room) fetched).same rfl ?_
    dsimp only
    split <;> rfl

theorem writeChunk_tracks {env : Env} {req : WriteChunkRequest} {r : Except Exn ClientStatus} (tracks : Tracks s s)
    (clear : ∀ write, s.worker.findWrite req.context = some write → write.Due req →
      s.network.Clear write.replicas.1 req.context.requestId req.chunkIndex ∧
        s.network.Clear write.replicas.2 req.context.requestId req.chunkIndex)
    (h : s.writeChunk env req = (r, s')) : Tracks s s' := by
  unfold writeChunk at h
  split at h
  · cases h
    exact tracks
  rename_i write found
  split at h
  · cases h
    exact tracks.same rfl rfl
  rename_i inOrder
  split at h
  · cases h
    exact tracks.same rfl rfl
  rename_i sized
  simp only [not_or, ne_eq, not_not] at inOrder sized
  obtain ⟨first, second⟩ := clear write found ⟨inOrder.1, UInt32.not_le.1 inOrder.2, sized⟩
  dsimp only at h
  have sent := fun (node : NodeId) {s' : System} (tracks' : Tracks s s') =>
    tracks'.send node (StorageProtocol.encodePutRequest req.context.requestId (putOf req write))
      fun event read own => absurd (of_makeFrame read).1 own
  have both := sent write.replicas.2 (sent write.replicas.1 tracks)
  split at h
  · rename_i waited
    cases h
    exact awaitPuts_tracks both first second waited
  · rename_i waited
    cases h
    exact (awaitPuts_tracks both first second waited).same rfl rfl
  · rename_i s₁ waited
    have tracks₁ := awaitPuts_tracks both first second waited
    cases h
    unfold acceptChunk
    dsimp only
    split
    · exact tracks₁.same rfl rfl
    · exact tracks₁.same rfl rfl

theorem openWrite_tracks {req : WriteFileRequest} {objectId : Bytes} {replicas : NodeId × NodeId} {status : ClientStatus}
    (tracks : Tracks base s) (h : s.openWrite req objectId replicas = (status, s')) : Tracks base s' := by
  rcases openWrite_step h with ⟨-, rfl⟩ | ⟨-, -, rfl⟩
  · exact tracks
  · exact tracks.same rfl rfl

theorem writeFile_tracks {env : Env} {req : WriteFileRequest} {status : ClientStatus} (tracks : Tracks base s)
    (h : s.writeFile env req = (status, s')) : Tracks base s' := by
  have started : ∀ {m : FileMetadata}, s.startWrite env req m = (status, s') → Tracks base s' := fun {m} h => by
    unfold startWrite at h
    dsimp only at h
    split at h
    · cases h
      exact tracks
    split at h
    · cases h
      exact tracks
    split at h
    · cases h
      exact tracks
    split at h
    · split at h <;> rename_i updated <;> cases (Prod.mk.inj updated).2 <;> cases h <;> exact tracks.same rfl rfl
    split at h
    · split at h
      · exact openWrite_tracks tracks h
      · cases h
        exact tracks
    split at h
    · cases h
      exact tracks
    split at h <;> rename_i updated <;> cases (Prod.mk.inj updated).2
    · cases h
      exact tracks.same rfl rfl
    · refine openWrite_tracks ?_ h
      exact tracks.same rfl rfl
  unfold writeFile at h
  split at h
  · cases h
    exact tracks
  split at h
  · exact started h
  · exact started h
  · cases h
    exact tracks

theorem readFile_tracks {req : ReadFileRequest} {answer : ClientStatus × UInt64 × UInt32} (tracks : Tracks base s)
    (h : s.readFile req = (answer, s')) : Tracks base s' := by
  unfold readFile at h
  dsimp only at h
  repeat' split at h
  all_goals
    cases h
    first
      | exact tracks
      | exact tracks.same rfl rfl

/-! ## Runs -/

/-- Where the step sends a `PUT`, none for the same request id and chunk is in flight to the same
node; and the worker's own ids have not run out. -/
def Unambiguous (s : System) : SystemEvent → Prop
  | .request (.writeChunk req) _ _ => ∀ write, s.worker.findWrite req.context = some write → write.Due req →
      s.network.Clear write.replicas.1 req.context.requestId req.chunkIndex ∧
        s.network.Clear write.replicas.2 req.context.requestId req.chunkIndex
  | .request (.readChunk _) _ _ => s.worker.currentStorageRequestId.toNat + 2 < 2 ^ 64
  | .request (.remove _) _ _ => s.worker.currentStorageRequestId.toNat + 2 < 2 ^ 64
  | _ => True

/-- The storage nodes run their workers and nothing else. -/
def Honest : SystemEvent → Prop
  | .request _ _ script => ∀ acts ∈ script, ∀ a ∈ acts, a.Honest
  | .storage acts => ∀ a ∈ acts, a.Honest
  | _ => True

/-- Every reply that the handler of the event takes answers a frame that this handler has sent to
the node the reply is from. -/
def Matched (s : System) : SystemEvent → Prop
  | .request event env script =>
      ∀ r s', MetadataState.handle env event (s.scripted script) = (r, s') →
        ∀ e ∈ s'.network.taken.drop s.network.taken.length, s.network.sent.length ≤ e.1 ∧ s'.network.Replies e.1 e.2
  | _ => True

/-- Nothing has been sent yet. -/
structure Silent (s : System) : Prop where
  sent : s.network.sent = []
  queue : s.network.queue = []
  boxes : ∀ node peer, s.network.peers.lookup node = some peer → peer.inbox = [] ∧ peer.outbox = []
  script : s.network.script = []

/-- What the requests in flight look like between two steps. -/
structure Orderly (s : System) : Prop where
  traced : s.network.Traced
  numbered : s.network.Numbered s.worker.currentStorageRequestId
  script : ∀ acts ∈ s.network.script, ∀ a ∈ acts, a.Honest

theorem silent_orderly (silent : s.Silent) : s.Orderly where
  traced :=
    { inbox := fun node peer found e mem => by simp [(silent.boxes node peer found).1] at mem
      outbox := fun node peer found e mem => by simp [(silent.boxes node peer found).2] at mem
      queue := fun e mem => by simp [silent.queue] at mem }
  numbered e mem := by simp [silent.sent] at mem
  script acts mem := by simp [silent.script] at mem

theorem respond_tracks {context : RequestContext} {job : ClientJob} {kind : RpcKind} {body : Bytes}
    (tracks : Tracks base s) : Tracks base (s.respond context fun id => Rpc.makeFrame id job kind body) :=
  tracks.respond fun _ _ => of_clientFrame

theorem handle_tracks {env : Env} {event : ClientEvent} {script : List (List Act)} {r : Except Exn Unit}
    (tracks : Tracks (s.prepared env script) (s.prepared env script))
    (unambiguous : s.Unambiguous (.request event env script))
    (h : MetadataState.handle env event (s.scripted script) = (r, s')) : Tracks (s.prepared env script) s' := by
  cases event with
  | createFile req =>
      cases h
      exact respond_tracks (tracks.same rfl rfl)
  | writeFile req =>
      cases h
      exact respond_tracks (writeFile_tracks tracks rfl)
  | writeChunk req =>
      rcases written : MetadataState.writeChunk env req (s.prepared env script) with ⟨result, s₁⟩
      have tracks₁ := writeChunk_tracks tracks unambiguous written
      change handleWriteChunk env req (s.prepared env script) = _ at h
      rw [handleWriteChunk, written] at h
      cases result with
      | error e =>
          cases h
          exact tracks₁
      | ok status =>
          cases h
          exact respond_tracks tracks₁
  | readFile req =>
      cases h
      exact respond_tracks (readFile_tracks tracks rfl)
  | readChunk req =>
      cases h
      exact respond_tracks (readChunk_tracks tracks unambiguous rfl)
  | remove req =>
      have room : s.worker.currentStorageRequestId.toNat + 2 < 2 ^ 64 := unambiguous
      cases h
      exact respond_tracks (remove_tracks tracks (Nat.lt_of_succ_lt room) rfl)
  | list req =>
      change handleList req (s.prepared env script) = _ at h
      unfold handleList at h
      dsimp only at h
      split at h <;> cases h
      · exact tracks.same rfl rfl
      · exact respond_tracks (tracks.same rfl rfl)
      · exact respond_tracks (tracks.same rfl rfl)
  | makeDir req =>
      cases h
      exact respond_tracks (tracks.same rfl rfl)
  | rename req =>
      cases h
      exact respond_tracks (tracks.same rfl rfl)
  | stat req =>
      change handleStat req (s.prepared env script) = _ at h
      unfold handleStat at h
      dsimp only at h
      split at h
      · cases h
        exact respond_tracks tracks
      · split at h <;> cases h
        · exact tracks.same rfl rfl
        · exact respond_tracks (tracks.same rfl rfl)
        · exact respond_tracks (tracks.same rfl rfl)
      · cases h
        exact respond_tracks tracks

theorem prepared_tracks {env : Env} {script : List (List Act)} (orderly : s.Orderly)
    (honest : ∀ acts ∈ script, ∀ a ∈ acts, a.Honest) : Tracks (s.prepared env script) (s.prepared env script) where
  since := .refl ⟨orderly.traced.inbox, orderly.traced.outbox, orderly.traced.queue⟩ honest
  numbered := orderly.numbered
  counter := UInt64.le_refl _

theorem next_orderly {e : SystemEvent} (orderly : s.Orderly) (honest : Honest e) (unambiguous : s.Unambiguous e)
    (h : s.next e = .ok s') : s'.Orderly := by
  cases e with
  | request event env script =>
      simp only [next] at h
      split at h
      · cases h
      · rename_i handled
        cases h
        have tracks := handle_tracks (prepared_tracks orderly honest) unambiguous handled
        exact ⟨tracks.since.traced, tracks.numbered, tracks.since.script⟩
  | storage acts =>
      cases h
      have since := (Since.refl orderly.traced orderly.script).acts honest
      refine ⟨since.traced, fun e mem event read own => ?_, since.script⟩
      rw [acts_sent] at mem
      rw [since.self] at read
      exact orderly.numbered e mem event read own
  | heartbeat now sender =>
      cases h
      exact ⟨orderly.traced, orderly.numbered, orderly.script⟩
  | checkTimeouts now =>
      cases h
      exact ⟨orderly.traced, orderly.numbered, orderly.script⟩

theorem matched_of_orderly {e : SystemEvent} (orderly : s.Orderly) (honest : Honest e) (unambiguous : s.Unambiguous e) :
    s.Matched e := by
  cases e with
  | request event env script =>
      intro r s' handled entry mem
      have tracks := handle_tracks (prepared_tracks orderly honest) unambiguous handled
      obtain ⟨new, split, all⟩ := tracks.since.taken
      rw [split] at mem
      exact all entry (by simpa [prepared, scripted] using mem)
  | _ => trivial

/-- As long as no `PUT` is sent while one with the same request id and chunk is in flight to the
same node, no handler takes a reply to a request that is not its own. -/
theorem replies_matched {events : List SystemEvent} (silent : s.Silent)
    (along : Along next (fun s e => Honest e ∧ s.Unambiguous e) s events) : Along next Matched s events :=
  along.of_invariant (fun _ _ _ orderly ok stepped => next_orderly orderly ok.1 ok.2 stepped)
    (fun _ _ orderly ok => matched_of_orderly orderly ok.1 ok.2) (silent_orderly silent)

/-- Client `"c"` writes the only chunk of `"p"`. -/
def oneChunk : List SystemEvent := joined ++
  [.request (.writeFile { path := [112], fileSize := 1, chunkCount := 1, context := fromClient 1 }) { first := 7 } [],
    .request (.writeChunk { chunkIndex := 0, data := [5], context := fromClient 1 }) {} [served]]

theorem start_silent : start.Silent := by
  refine ⟨rfl, rfl, fun node peer found => ?_, rfl⟩
  rw [lookup_start found]
  exact ⟨rfl, rfl⟩

theorem start_clear {c : Cluster} (queue : c.queue = []) (peers : c.peers = start.network.peers) (node : NodeId)
    (id : UInt64) (chunkIndex : UInt32) : c.Clear node id chunkIndex := by
  intro tag mem
  rcases mem_inFlight.1 mem with ⟨peer, found, frame, boxes⟩ | ⟨message, queued, -⟩
  · obtain ⟨inbox, outbox⟩ := start_silent.boxes node peer (peers ▸ found)
    simp [inbox, outbox] at boxes
  · simp [queue] at queued

theorem replies_matched_oneChunk : Along next Matched start oneChunk := by
  refine replies_matched start_silent ⟨⟨trivial, trivial⟩, fun s₁ h₁ => ⟨⟨trivial, trivial⟩, fun s₂ h₂ =>
    ⟨⟨by simp [Honest], trivial⟩, fun s₃ h₃ => ⟨⟨by simp [Honest, served, Act.Honest], fun write found _ => ?_⟩,
      fun _ _ => trivial⟩⟩⟩⟩
  have network : s₃.network.queue = [] ∧ s₃.network.peers = start.network.peers := by
    cases h₁
    cases h₂
    cases h₃
    exact ⟨rfl, rfl⟩
  exact ⟨start_clear network.1 network.2 _ _ _, start_clear network.1 network.2 _ _ _⟩

/-- Clients `"c"` and `"d"` both send chunk 0 of their request 1. The reply of node `"b"` to the
first is late. -/
def sameRequestId : List SystemEvent := joined ++
  [.request (.writeFile { path := [112], fileSize := 1, chunkCount := 1, context := fromClient 1 }) { first := 7 } [],
    .request (.writeFile { path := [113], fileSize := 1, chunkCount := 1, context := ⟨1, ⟨[100], .client⟩⟩ })
      { first := 8 } [],
    .request (.writeChunk { chunkIndex := 0, data := [5], context := fromClient 1 }) {}
      [[.serve [97] [], .deliver [97], .serve [98] []]]]

/-- The chunk of client `"d"`. -/
def lateChunk : WriteChunkRequest := { chunkIndex := 0, data := [6], context := ⟨1, ⟨[100], .client⟩⟩ }

/-- What happens while it is written: node `"a"` answers, and the late reply of `"b"` arrives. -/
def lateReply : List (List Act) := [[.serve [97] [], .deliver [97], .deliver [98]]]

theorem replies_mismatched :
    ¬ ∀ (s : System) (events : List SystemEvent), s.Silent → (∀ e ∈ events, Honest e) → Along next Matched s events := by
  intro always
  have along := always start (sameRequestId ++ [.request (.writeChunk lateChunk) {} lateReply]) start_silent
    (by simp [sameRequestId, joined, Honest, Act.Honest, lateReply])
  obtain ⟨s', ran, taken⟩ := exists_ok (r := start.run sameRequestId)
    (f := fun s => ((MetadataState.handle {} (.writeChunk lateChunk) (s.scripted lateReply)).2.network.taken.drop
      s.network.taken.length).any fun e => e.1 < s.network.sent.length) (by decide +kernel)
  obtain ⟨e, mem, old⟩ := List.any_eq_true.1 taken
  have recent := (along.last ran _ _ rfl e mem).1
  exact absurd (of_decide_eq_true old) (Nat.not_lt.2 recent)

end System

end Dfs
