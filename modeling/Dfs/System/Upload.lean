import Dfs.Metadata.Opening
import Dfs.System.Removal
import Dfs.System.Writers

/-!
# A file on its way to the storage nodes

The requests of one client, handled while no call fails and no other client asks for anything, take
the chunks of a file one after the other to both of its replicas. Whatever the object has held
before, the last chunk replaces it.
-/

namespace Dfs

open Lib

/-- What goes on between two requests: nodes show up or are given up, and no call of a storage node fails. -/
def SystemEvent.Smooth : SystemEvent → Prop
  | .request _ _ _ => False
  | .storage acts => ∀ a ∈ acts, a.Under healthy
  | .heartbeat _ sender => NodeClean sender.id
  | .checkTimeouts _ => True

namespace System

open Cluster MetadataState MetadataStore MetadataWorker

variable {s s' : System} {node : NodeId} {context : RequestContext} {write : PendingWrite} {chunks : List Bytes} {data b path : Bytes}
  {env : Env} {script : List (List Act)} {e : SystemEvent}

/-! ## Between two requests -/

theorem Smooth.from_clean (smooth : e.Smooth) : e.From NodeClean := by
  cases e with
  | heartbeat now sender => exact smooth
  | _ => trivial

/-- The same nodes are there, nothing is under way, and no node has done anything. -/
structure Still (s s' : System) : Prop where
  calm : s'.Calm
  self : s'.network.self = s.network.self
  joined : ∀ node, s'.Joined node ↔ s.Joined node
  idle : ∀ node w, s.network.At node (Idle w) → s'.network.At node (Idle w)

theorem Still.of_peers (calm : s.Calm) (peers : s'.network.peers = s.network.peers) (queue : s'.network.queue = s.network.queue)
    (self : s'.network.self = s.network.self) : s.Still s' := by
  refine ⟨?_, self, fun node => by rw [Joined, peers]; rfl, fun node w idle => ?_⟩
  · rwa [Calm, peers, queue]
  · rwa [Cluster.At, peers, Cluster.held, queue]

/-- Without a request there is nothing to do. -/
theorem Smooth.still (calm : s.Calm) (smooth : e.Smooth) (h : s.next e = .ok s') : s.Still s' := by
  cases e with
  | request event env script => exact smooth.elim
  | heartbeat now sender =>
      cases h
      exact .of_peers calm rfl rfl rfl
  | checkTimeouts now =>
      cases h
      exact .of_peers calm rfl rfl rfl
  | storage acts =>
      cases h
      have idle : ∀ node w, s.network.At node (Idle w) → (s.network.acts acts).At node (Idle w) :=
        fun node w idle => at_acts idle_stable smooth idle
      have within : Within s.network (s.network.acts acts) := (Within.refl calm.1).acts acts
      refine ⟨calm_of_idle (s := { s with network := s.network.acts acts }) within fun node joined => ?_, acts_self _ _,
        fun node => ?_, idle⟩
      · obtain ⟨w, here⟩ := calm.idle (Option.isSome_iff_exists.1 joined)
        exact ⟨w, idle node w here⟩
      · rw [Joined, Joined, ← Option.isSome_iff_exists, ← Option.isSome_iff_exists, within.nodes]

/-- The records and the sessions are not touched. -/
theorem Smooth.same (smooth : e.Smooth) (h : s.next e = .ok s') : SameTables s.worker s'.worker := by
  cases e with
  | request event env script => exact smooth.elim
  | _ =>
      cases h
      exact ⟨rfl, rfl, rfl⟩

theorem Smooth.removable (removable : s.Removable) (smooth : e.Smooth) (h : s.next e = .ok s') : s'.Removable :=
  nextNode_removable (e := .step e) removable (Smooth.from_clean smooth) h

/-- Nothing is under way, and no session is open. -/
structure AtRest (s : System) : Prop where
  calm : s.Calm
  writes : ∀ c, s.worker.findWrite c = none
  reads : ∀ c, s.worker.findRead c = none

/-! ## Answers -/

/-- The request is handled, and `frame` is the answer. -/
structure Replies (s : System) (event : ClientEvent) (env : Env) (script : List (List Act)) (frame : Frame) (s' : System) : Prop where
  stepped : s.next (.request event env script) = .ok s'
  answers : s'.network.answers = s.network.answers ++ [(event.context.sender.id, frame)]

theorem respond_answers {encode : UInt64 → Frame} (client : ¬ s.Joined context.sender.id) :
    (s.respond context encode).network.answers = s.network.answers ++ [(context.sender.id, encode context.requestId)] := by
  have absent : s.network.peers.lookup context.sender.id = none :=
    Option.eq_none_iff_forall_ne_some.2 fun peer found => client ⟨peer, found⟩
  have sent : (s.respond context encode).network = s.network.send context.sender.id (encode context.requestId) := rfl
  rw [sent, Cluster.send, absent]

theorem send_joined {frame : Frame} (joined : s.Joined node) : (s.send node frame).network.answers = s.network.answers ∧
    ∀ n, s.Joined n → System.Joined (s.send node frame) n := by
  obtain ⟨peer, found⟩ := joined
  have sent : (s.send node frame).network = s.network.send node frame := rfl
  rw [sent, Cluster.send, found]
  refine ⟨rfl, fun n there => ?_⟩
  obtain ⟨peer', found'⟩ := there
  rw [Joined, sent, Cluster.send, found]
  dsimp only
  rw [Assoc.lookup_insert_ite]
  split
  · exact ⟨_, rfl⟩
  · exact ⟨peer', found'⟩

/-- The chunks that a handler sends to storage nodes are no answers. -/
theorem writeChunk_answers {req : WriteChunkRequest} {r : Except Exn ClientStatus} (found : s.worker.findWrite req.context = some write)
    (first : s.Joined write.replicas.1) (second : s.Joined write.replicas.2) (h : s.writeChunk env req = (r, s')) :
    s'.network.answers = s.network.answers := by
  have waited : ∀ {replica : NodeId} {r : Except Exn Bool} {t t' : System}, t.awaitPut req replica = (r, t') →
      t'.network.answers = t.network.answers := fun waited => by
    obtain ⟨p, -, network, -⟩ := awaitPut_network waited
    rw [network, take_answers]
    exact acts_answers _ _
  have both : ∀ {r : Except Exn Bool} {t t' : System}, t.awaitPuts req write.replicas = (r, t') →
      t'.network.answers = t.network.answers := fun {r t t'} awaited => by
    unfold awaitPuts at awaited
    split at awaited
    · rename_i one
      cases awaited
      exact waited one
    · rename_i one
      split at awaited <;> rename_i two <;> cases awaited <;> exact (waited two).trans (waited one)
  set frame := StorageProtocol.encodePutRequest req.context.requestId (putOf req write) with encoded
  have sent : ((s.send write.replicas.1 frame).send write.replicas.2 frame).network.answers = s.network.answers := by
    obtain ⟨same, still⟩ := @send_joined s write.replicas.1 frame first
    rw [(send_joined (s := s.send write.replicas.1 frame) (still _ second)).1, same]
  unfold writeChunk at h
  rw [found] at h
  dsimp only at h
  rw [← encoded] at h
  split at h
  · cases h
    rfl
  split at h
  · cases h
    rfl
  split at h <;> rename_i awaited
  · cases h
    exact (both awaited).trans sent
  · cases h
    exact (both awaited).trans sent
  · rcases accepted : acceptChunk env req write _ with ⟨status, s₂⟩
    rw [accepted] at h
    cases h
    rw [acceptChunk_network accepted]
    exact (both awaited).trans sent

/-! ## A session -/

/-- The node counts the chunks of the session so far and has their bytes. -/
def Follows (write : PendingWrite) (chunks : List Bytes) (w : StorageWorker) : Prop :=
  write.nextChunk ≠ 0 → w.nextChunks.lookup write.objectId = some write.nextChunk ∧ w.pending write.objectId = some chunks.flatten

/-- The node waits for the next chunk of the session. -/
def Awaits (s : System) (node : NodeId) (write : PendingWrite) (chunks : List Bytes) : Prop :=
  ∃ w, s.network.At node (Idle w) ∧ Follows write chunks w

/-- The session of the context is the only one, and both replicas have its chunks so far. -/
structure Uploading (context : RequestContext) (write : PendingWrite) (chunks : List Bytes) (s : System) : Prop where
  calm : s.Calm
  client : ¬ s.Joined context.sender.id
  removable : s.Removable
  writes : ∀ c : RequestContext, s.worker.findWrite c =
    if c.sender.id = context.sender.id ∧ c.requestId = context.requestId then some write else none
  reads : ∀ c, s.worker.findRead c = none
  count : chunks.length = write.nextChunk.toNat
  first : s.Awaits write.replicas.1 write chunks
  second : s.Awaits write.replicas.2 write chunks
  valid : validFilename write.path = true
  writable : Writable s.worker.store.disk.tree (physical write.path)

theorem Uploading.found (uploading : Uploading context write chunks s) : s.worker.findWrite context = some write := by
  rw [uploading.writes, if_pos ⟨rfl, rfl⟩]

theorem Uploading.sound (uploading : Uploading context write chunks s) : write.Sound :=
  uploading.removable.sturdy.sessions.writes _ _ _ uploading.found

theorem Uploading.generated (uploading : Uploading context write chunks s) : Generated write.objectId :=
  uploading.removable.generated _ _ (.write _ _ uploading.found)

theorem Still.awaits (still : s.Still s') (awaits : s.Awaits node write chunks) : s'.Awaits node write chunks := by
  obtain ⟨w, idle, follows⟩ := awaits
  exact ⟨w, still.idle node w idle, follows⟩

theorem Uploading.smooth (uploading : Uploading context write chunks s) (smooth : e.Smooth) (h : s.next e = .ok s') :
    Uploading context write chunks s' := by
  have still := Smooth.still uploading.calm smooth h
  obtain ⟨store, reads, writes⟩ := Smooth.same smooth h
  refine ⟨still.calm, fun there => uploading.client ((still.joined _).1 there), Smooth.removable uploading.removable smooth h, ?_, ?_,
    uploading.count, still.awaits uploading.first, still.awaits uploading.second, uploading.valid, ?_⟩
  · exact fun c => (congrArg (Nested.find · _ _) writes).trans (uploading.writes c)
  · exact fun c => (congrArg (Nested.find · _ _) reads).trans (uploading.reads c)
  · rw [store]
    exact uploading.writable

/-- The request with the next chunk. -/
def chunkRequest (context : RequestContext) (write : PendingWrite) (data : Bytes) : WriteChunkRequest :=
  { chunkIndex := write.nextChunk, data, context }

theorem Uploading.storable (uploading : Uploading context write chunks s)
    (length : data.length = (expectedSize write.fileSize write.nextChunk).toNat)
    (under : ∀ acts ∈ script, ∀ a ∈ acts, a.Under healthy) (inTime : RepliesInTime write.replicas script) :
    ∃ w₁ w₂, Storable s script (chunkRequest context write data) write w₁ w₂ ∧ Follows write chunks w₁ ∧ Follows write chunks w₂ := by
  obtain ⟨w₁, idle₁, follows₁⟩ := uploading.first
  obtain ⟨w₂, idle₂, follows₂⟩ := uploading.second
  have expects : ∀ {node w}, s.network.At node (Idle w) → Follows write chunks w →
      Expects w (putFor s.network.self (chunkRequest context write data) write) := by
    rintro node w ⟨peer, found, rfl, -⟩ follows
    refine ⟨uploading.generated, length.trans_le (expectedSize_le _ _), (uploading.removable.ordinary.peers _ _ found).flat, ?_⟩
    by_cases zero : write.nextChunk = 0
    · exact .inl zero
    · exact .inr (follows zero).1
  exact ⟨w₁, w₂, ⟨uploading.calm, uploading.client, uploading.found, ⟨rfl, uploading.sound.next, length⟩,
    uploading.sound.bound.2.2, under, inTime, idle₁, idle₂, expects idle₁ follows₁, expects idle₂ follows₂⟩, follows₁, follows₂⟩

/-- What a replica has made of the chunk. -/
theorem Follows.grown {conditions : Conditions} {asker : NodeIdentity} {w w' : StorageWorker} (follows : Follows write chunks w)
    (count : chunks.length = write.nextChunk.toNat)
    (done : PutDone conditions w (putFor asker (chunkRequest context write data) write) w') :
    (write.nextChunk + 1 ≠ write.chunkCount → Follows { write with nextChunk := write.nextChunk + 1 } (chunks ++ [data]) w') ∧
      (write.nextChunk + 1 = write.chunkCount → w'.committed write.objectId = some (chunks ++ [data]).flatten) := by
  obtain ⟨more, whole⟩ := @PutDone.grown _ _ _ _ chunks done
    (fun zero => List.length_eq_zero_iff.1 (count.trans (congrArg UInt32.toNat (show write.nextChunk = 0 from zero))))
    (fun later _ => (follows later).2)
  refine ⟨fun part _ => ⟨?_, more (decide_eq_false part)⟩, fun last =>
    whole (decide_eq_true last)⟩
  cases done.step with
  | failed _ bad _ => exact absurd rfl bad
  | more _ _ next _ _ => exact next
  | commit final _ _ _ _ => exact absurd (of_decide_eq_true final) part

/-- The file at the path is `b`: that is what its record says and both of its replicas have. -/
structure Contains (path b : Bytes) (s : System) : Prop where
  rest : s.AtRest
  ordinary : s.network.Ordinary
  valid : validFilename path = true
  record : ∃ m, s.worker.store.data.lookup (key path) = some m ∧ m.objId ≠ [] ∧ m.size.toNat = b.length ∧
    (b ≠ [] → Generated m.objId ∧ (m.replicaLocations.1 ≠ [] ∧ m.replicaLocations.2 ≠ [] ∧
      m.replicaLocations.1 ≠ m.replicaLocations.2) ∧ s.Holds m.replicaLocations.1 m.objId b ∧ s.Holds m.replicaLocations.2 m.objId b)

/-- The last chunk of a session makes the record. -/
theorem acceptChunk_last {req : WriteChunkRequest} (last : write.nextChunk + 1 = write.chunkCount) (mirror : Mirrored s.worker)
    (valid : validFilename write.path = true) (writable : Writable s.worker.store.disk.tree (physical write.path))
    (quiet : s.worker.store.disk.Healthy 0) :
    ∃ store m, s.acceptChunk env req write = (.success, { s with worker := { s.worker with store }.discardWrite req.context }) ∧
      store.data.lookup (key write.path) = some m ∧ m.objId = write.objectId ∧ m.size = write.fileSize ∧
      m.replicaLocations = write.replicas := by
  obtain ⟨store, updated⟩ := updateMetadata_healthy
    (m := { path := write.path, size := write.fileSize, objId := write.objectId, replicaLocations := write.replicas }) env.now
    mirror valid quiet (by decide) writable
  obtain ⟨-, m, same, data⟩ := (updateMetadata_data updated).2 rfl
  refine ⟨store, m, ?_, ?_, same.objId, same.size, same.replicaLocations⟩
  · rw [acceptChunk]
    dsimp only
    rw [if_neg (by simp [last]), onStore, updated]
    rfl
  · rw [data, Assoc.lookup_insert_ite, if_pos rfl]

theorem Holds.of_idle {w : StorageWorker} {x : Bytes} (idle : s.network.At node (Idle w)) (whole : w.committed x = some b) :
    s.Holds node x b := by
  obtain ⟨peer, found, rfl, -⟩ := idle
  exact ⟨_, found, whole⟩

/-- One chunk: the session goes on, or the file is complete. -/
theorem Uploading.accepts (uploading : Uploading context write chunks s) (fine : env.Healthy)
    (length : data.length = (expectedSize write.fileSize write.nextChunk).toNat)
    (under : ∀ acts ∈ script, ∀ a ∈ acts, a.Under healthy) (inTime : RepliesInTime write.replicas script) :
    ∃ s', s.Replies (.writeChunk (chunkRequest context write data)) env script
        (ClientProtocol.encodeWriteChunkResponse context.requestId { chunkIndex := write.nextChunk, status := .success, context }) s' ∧
      (write.nextChunk + 1 ≠ write.chunkCount →
        Uploading context { write with nextChunk := write.nextChunk + 1 } (chunks ++ [data]) s') ∧
      (write.nextChunk + 1 = write.chunkCount → (chunks ++ [data]).flatten.length = write.fileSize.toNat →
        Contains write.path (chunks ++ [data]).flatten s') := by
  obtain ⟨w₁, w₂, storable, follows₁, follows₂⟩ := uploading.storable length under inTime
  obtain ⟨s', stored⟩ := storable.stored env
  obtain ⟨w₁', done₁, -, idle₁⟩ := stored.first
  obtain ⟨w₂', done₂, -, idle₂⟩ := stored.second
  obtain ⟨more₁, whole₁⟩ := follows₁.grown uploading.count done₁
  obtain ⟨more₂, whole₂⟩ := follows₂.grown uploading.count done₂
  have removable : s'.Removable := nextNode_removable (e := .step (.request (.writeChunk _) env script)) uploading.removable
    trivial stored.stepped
  obtain ⟨s₁, same, worker, -, written⟩ := stored.accepted
  obtain ⟨status, s₂, written', answered⟩ := next_writeChunk stored.stepped
  cases written.symm.trans written'
  have replicas : s.Joined write.replicas.1 ∧ s.Joined write.replicas.2 := by
    obtain ⟨peer₁, found₁, -⟩ := storable.first
    obtain ⟨peer₂, found₂, -⟩ := storable.second
    exact ⟨⟨peer₁, found₁⟩, ⟨peer₂, found₂⟩⟩
  have kept := writeChunk_answers (s := s.prepared env script) storable.found replicas.1 replicas.2 written'
  have client : ¬ System.Joined (s₁.acceptChunk env (chunkRequest context write data) write).2 context.sender.id := fun there =>
    uploading.client ((stored.joined _).1 (by rw [answered]; exact (send_joined there).2 _ there))
  have answer : (s₁.acceptChunk env (chunkRequest context write data) write).1 = .success → s'.network.answers =
      s.network.answers ++ [(context.sender.id, ClientProtocol.encodeWriteChunkResponse context.requestId
        { chunkIndex := write.nextChunk, status := .success, context })] := fun success => by
    rw [answered, success]
    exact (respond_answers client).trans (by rw [kept]; rfl)
  by_cases last : write.nextChunk + 1 = write.chunkCount
  · obtain ⟨store, m, accepted, found, objId, size, replicas⟩ :=
      @acceptChunk_last s₁ write env (chunkRequest context write data) last
      (by rw [Mirrored, same.store]; exact uploading.removable.sturdy.mirrored)
      uploading.valid (by rw [same.store]; exact uploading.writable)
      (by rw [same.store]; exact fun o mem => ⟨fine o mem, Nat.zero_le _⟩)
    rw [accepted] at worker
    refine ⟨s', ⟨stored.stepped, answer (by rw [accepted])⟩, fun part => absurd last part, fun _ sized =>
      ⟨⟨stored.calm, fun c => ?_, fun c => ?_⟩,
      removable.ordinary, uploading.valid, m, ?_, ?_, ?_, fun _ => ⟨?_, ?_, ?_, ?_⟩⟩⟩
    · rw [worker, MetadataWorker.findWrite, MetadataWorker.discardWrite, Nested.find_discard]
      split
      · rfl
      · rename_i other
        exact (congrArg (Nested.find · _ _) same.pendingWrites).trans ((uploading.writes c).trans (if_neg other))
    · rw [worker]
      exact (congrArg (Nested.find · _ _) same.pendingReads).trans (uploading.reads c)
    · rw [worker]
      exact found
    · rw [objId]
      exact List.ne_nil_of_length_pos (by rw [uploading.generated.length]; decide)
    · rw [size, sized]
    · rw [objId]
      exact uploading.generated
    · rw [replicas]
      exact uploading.sound.bound
    · rw [replicas, objId]
      exact .of_idle idle₁ (whole₁ last)
    · rw [replicas, objId]
      exact .of_idle idle₂ (whole₂ last)
  · obtain ⟨store, reads, sessions⟩ := stored.part last
    have accepted : (s₁.acceptChunk env (chunkRequest context write data) write).1 = .success := by
      rw [acceptChunk]
      dsimp only
      rw [if_pos last]
    refine ⟨s', ⟨stored.stepped, answer accepted⟩, fun _ =>
      ⟨stored.calm, fun there => uploading.client ((stored.joined _).1 there), removable,
      fun c => ?_, fun c => ?_, ?_, ⟨w₁', idle₁, more₁ last⟩, ⟨w₂', idle₂, more₂ last⟩, uploading.valid, ?_⟩, fun final => absurd final last⟩
    · rw [sessions]
      split
      · rename_i own
        exact (if_pos own).symm
      · rename_i other
        exact (uploading.writes c).trans ((if_neg other).trans (if_neg other).symm)
    · exact (congrArg (Nested.find · _ _) reads).trans (uploading.reads c)
    · rw [List.length_append, uploading.count, uploading.sound.exact.next]
      rfl
    · rw [store]
      exact uploading.writable

/-! ## The request before the chunks -/

/-- What every state has that a node reaches. -/
structure Reached (s : System) : Prop where
  removable : s.Removable
  paired : s.worker.All fun _ replicas => Paired replicas

theorem nextNode_reached {e : NodeEvent} (reached : s.Reached) (heard : e.From NodeClean) (h : s.nextNode e = .ok s') :
    s'.Reached where
  removable := nextNode_removable reached.removable heard h
  paired := by
    refine nextNode_all reached.removable.sturdy reached.paired (fun env => ⟨.inl rfl, fun x r r' _ first second apart => ?_⟩) h
    have named := fun node available => (reached.removable.sturdy.known.available node available).1
    exact .inr ⟨named _ first, named _ second, apart⟩

theorem Blank.reached (blank : s.Blank) (ordinary : s.network.Ordinary) : s.Reached := by
  refine ⟨blank.removable ordinary, fun x r names => ?_⟩
  obtain ⟨k, m, found, -, -⟩ := blank.fresh.names names
  simp [blank.records] at found

theorem Smooth.reached (reached : s.Reached) (smooth : e.Smooth) (h : s.next e = .ok s') : s'.Reached :=
  nextNode_reached (e := .step e) reached (Smooth.from_clean smooth) h

theorem AtRest.smooth (rest : s.AtRest) (smooth : e.Smooth) (h : s.next e = .ok s') : s'.AtRest := by
  obtain ⟨-, reads, writes⟩ := Smooth.same smooth h
  exact ⟨(Smooth.still rest.calm smooth h).calm, fun c => (congrArg (Nested.find · _ _) writes).trans (rest.writes c),
    fun c => (congrArg (Nested.find · _ _) reads).trans (rest.reads c)⟩

/-- A file can be put at the path, and the nodes for its chunks are there. -/
structure Receptive (s : System) (req : WriteFileRequest) : Prop where
  sized : chunksOf req.fileSize = req.chunkCount.toUInt64
  valid : validFilename req.path = true
  writable : Writable s.worker.store.disk.tree (physical req.path)
  served : req.chunkCount ≠ 0 → s.worker.Supplied req.path
  there : req.chunkCount ≠ 0 → ∀ node, s.worker.isAvailable node = true → s.Joined node

theorem Receptive.openable {req : WriteFileRequest} (receptive : s.Receptive req) (reached : s.Reached) (rest : s.AtRest)
    (fine : env.Healthy) (script : List (List Act)) : (s.prepared env script).worker.Openable req where
  sized := receptive.sized
  free := rest.writes _
  valid := receptive.valid
  writable := receptive.writable
  served := receptive.served
  clean x r names := reached.removable.sturdy.clean x r names.withOutcomes
  paired x r names := reached.paired x r names.withOutcomes
  mirrored := reached.removable.sturdy.mirrored
  still o mem := ⟨fine o mem, Nat.zero_le _⟩

variable {req : WriteFileRequest}

/-- The answer to a request that concerns no storage node. -/
theorem writeFile_replies {s₁ : System} {status : ClientStatus} (calm : s.Calm) (client : ¬ s.Joined req.context.sender.id)
    (run : (s.prepared env script).writeFile env req = (status, s₁)) (network : s₁.network = (s.prepared env script).network) :
    ∃ s' : System, s.Replies (.writeFile req) env script
        (ClientProtocol.encodeWriteFileResponse req.context.requestId { status, context := req.context }) s' ∧
      s.Still s' ∧ s'.worker = s₁.worker := by
  set encode := fun id => ClientProtocol.encodeWriteFileResponse id { status, context := req.context }
  have client₁ : ¬ System.Joined s₁ req.context.sender.id := by
    rw [Joined, network]
    exact client
  have answers := @respond_answers s₁ req.context encode client₁
  obtain ⟨peers, queue, self⟩ := respond_network encode client₁
  rw [network] at peers queue self answers
  refine ⟨s₁.respond req.context encode, ⟨?_, answers⟩, .of_peers calm peers queue self, rfl⟩
  have handled : MetadataState.handle env (.writeFile req) (s.scripted script) =
      (.ok (), handleWriteFile env req (s.prepared env script)) := rfl
  simp only [next, handled, handleWriteFile, run]
  rfl

theorem Receptive.begins (receptive : s.Receptive req) (reached : s.Reached) (rest : s.AtRest)
    (client : ¬ s.Joined req.context.sender.id) (fine : env.Healthy) (script : List (List Act)) (chunks : req.chunkCount ≠ 0) :
    ∃ s' x replicas, s.Replies (.writeFile req) env script
        (ClientProtocol.encodeWriteFileResponse req.context.requestId { status := .success, context := req.context }) s' ∧
      Uploading req.context (sessionOf req x replicas) [] s' := by
  obtain ⟨s₁, x, replicas, run, opened⟩ := writeFile_starts (receptive.openable reached rest fine script) chunks env
  obtain ⟨s', replies, still, worker⟩ := writeFile_replies rest.calm client run opened.network
  have awaits : ∀ node, s.worker.isAvailable node = true → s'.Awaits node (sessionOf req x replicas) [] := fun node available => by
    obtain ⟨w, idle⟩ := rest.calm.idle (receptive.there chunks node available)
    exact ⟨w, still.idle node w idle, fun later => absurd rfl later⟩
  refine ⟨s', x, replicas, replies, still.calm, fun there => client ((still.joined _).1 there),
    (nextNode_reached (e := .step (.request (.writeFile req) env script)) reached trivial replies.stepped).removable,
    fun c => ?_, fun c => ?_, rfl, awaits _ opened.available.1, awaits _ opened.available.2, receptive.valid, ?_⟩
  · rw [worker]
    refine (findWrite_putWrite opened.writes).trans ?_
    split
    · rfl
    · exact rest.writes c
  · rw [worker]
    exact (congrArg (Nested.find · _ _) opened.reads).trans (rest.reads c)
  · rw [worker]
    exact opened.writable

theorem Receptive.empties (receptive : s.Receptive req) (reached : s.Reached) (rest : s.AtRest)
    (client : ¬ s.Joined req.context.sender.id) (fine : env.Healthy) (script : List (List Act)) (empty : req.chunkCount = 0) :
    ∃ s', s.Replies (.writeFile req) env script
        (ClientProtocol.encodeWriteFileResponse req.context.requestId { status := .success, context := req.context }) s' ∧
      Contains req.path [] s' := by
  obtain ⟨s₁, m, run, emptied⟩ := writeFile_empties (receptive.openable reached rest fine script) empty env
  obtain ⟨s', replies, still, worker⟩ := writeFile_replies rest.calm client run emptied.network
  have reached' : s'.Reached := nextNode_reached (e := .step (.request (.writeFile req) env script)) reached trivial replies.stepped
  refine ⟨s', replies, ⟨still.calm, fun c => ?_, fun c => ?_⟩, reached'.removable.ordinary, receptive.valid, m, ?_, emptied.named,
    by rw [emptied.size]; rfl, fun some => absurd rfl some⟩
  · rw [worker]
    exact (congrArg (Nested.find · _ _) emptied.writes).trans (rest.writes c)
  · rw [worker]
    exact (congrArg (Nested.find · _ _) emptied.reads).trans (rest.reads c)
  · rw [worker]
    exact emptied.record

end System

end Dfs
