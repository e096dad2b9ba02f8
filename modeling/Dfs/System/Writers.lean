import Dfs.System.Rounds
import Dfs.Metadata.Ownership
import Dfs.Metadata.Sessions

/-!
# Write sessions of one path

The metadata worker counts the chunks of each session and a storage node those of each object.
The two counts agree as long as the chunks of different sessions do not alternate.
-/

namespace Dfs

open Lib

namespace System

open Cluster MetadataState MetadataStore

variable {conditions : Conditions} {path : Bytes}

/-! ## Runs with their chunks -/

/-- A run so far: the chunks that each open session has had handled, and the session whose chunk
was handled last. -/
structure Observed where
  system : System
  own : Nested NodeId UInt64 (List Bytes)
  last : Option (NodeId × UInt64)

/-- How the worker tells sessions apart. -/
def sessionKey (context : RequestContext) : NodeId × UInt64 := (context.sender.id, context.requestId)

instance (write : PendingWrite) (req : WriteChunkRequest) : Decidable (write.Due req) :=
  inferInstanceAs (Decidable (_ ∧ _ ∧ _))

namespace Observed

/-- The chunks of the session before this one. -/
def earlier (o : Observed) (req : WriteChunkRequest) : List Bytes :=
  if req.chunkIndex = 0 then [] else (Nested.find o.own req.context.sender.id req.context.requestId).getD []

/-- The session of the request, if its chunk is the next one. -/
def due (o : Observed) (req : WriteChunkRequest) : Option PendingWrite :=
  (o.system.worker.findWrite req.context).filter fun write => write.Due req

def after (o : Observed) (e : SystemEvent) (s' : System) : Observed :=
  match e with
  | .request (.writeChunk req) _ _ =>
      match o.due req with
      | none => { o with system := s' }
      | some _ =>
          { system := s'
            own := Nested.put o.own req.context.sender.id req.context.requestId (o.earlier req ++ [req.data])
            last := some (sessionKey req.context) }
  | _ => { o with system := s' }

def next (o : Observed) (e : SystemEvent) : Except Exn Observed :=
  match o.system.next e with
  | .error x => .error x
  | .ok s' => .ok (o.after e s')

end Observed

/-- The requests of write sessions for one path, each with all its frames handled and all replies
taken in time. The storage nodes that count as available are there. -/
def WritesOnly (conditions : Conditions) (path : Bytes) (o : Observed) (e : SystemEvent) : Prop :=
  (∀ s', o.system.next e = .ok s' → s'.Calm) ∧
    match e with
    | .request (.writeFile req) _ script =>
        PosixPath.samePath req.path path = true ∧ (∀ acts ∈ script, ∀ a ∈ acts, a.Under conditions) ∧
          ∀ node, o.system.worker.isAvailable node = true → o.system.Joined node
    | .request (.writeChunk _) _ script => ∀ acts ∈ script, ∀ a ∈ acts, a.Under conditions
    | .heartbeat _ _ => True
    | .checkTimeouts _ => True
    | _ => False

/-- The replica expects chunk `k` of the object. -/
def Counts (s : System) (node : NodeId) (x : Bytes) (k : UInt32) : Prop :=
  ∃ peer, s.network.peers.lookup node = some peer ∧ peer.worker.nextChunks.lookup x = some k

/-- A chunk other than the first, where both replicas expect it, comes right after the chunk
before it. -/
def Uninterrupted (o : Observed) : SystemEvent → Prop
  | .request (.writeChunk req) _ _ => ∀ write, o.due req = some write → req.chunkIndex ≠ 0 →
      o.system.Counts write.replicas.1 write.objectId req.chunkIndex →
      o.system.Counts write.replicas.2 write.objectId req.chunkIndex → o.last = some (sessionKey req.context)
  | _ => True

/-- The committed bytes of an object on a node. -/
def Holds (s : System) (node : NodeId) (x b : Bytes) : Prop :=
  ∃ peer, s.network.peers.lookup node = some peer ∧ peer.worker.committed x = some b

/-- If the event is a last chunk and is answered `Success`, both replicas have committed the chunks
of its session. -/
def CommitsOwn (o : Observed) : SystemEvent → Prop
  | .request (.writeChunk req) env script => ∀ (write : PendingWrite) (s' : System), o.due req = some write →
      req.chunkIndex + 1 = write.chunkCount →
      (o.system.prepared env script).writeChunk env req = (.ok .success, s') →
        (o.earlier req ++ [req.data]).length = write.chunkCount.toNat ∧
          s'.Holds write.replicas.1 write.objectId (o.earlier req ++ [req.data]).flatten ∧
          s'.Holds write.replicas.2 write.objectId (o.earlier req ++ [req.data]).flatten
  | _ => True

/-! ## Sessions and the record of their file -/

/-- The object and the replicas recorded for a path. -/
def stored (w : MetadataWorker) (path : Bytes) : Option (Bytes × NodeId × NodeId) :=
  (w.store.data.lookup (key path)).map fun m => (m.objId, m.replicaLocations)

/-- The record of the path names two storage nodes or none, and its sessions agree with it. -/
structure Settled (path : Bytes) (s : System) : Prop where
  record : ∀ x replicas, stored s.worker path = some (x, replicas) → Generated x ∧
    (replicas = ([], []) ∨ replicas.1 ≠ replicas.2 ∧ s.Joined replicas.1 ∧ s.Joined replicas.2)
  writes : ∀ context write, s.worker.findWrite context = some write → key write.path = key path ∧
    stored s.worker path = some (write.objectId, write.replicas) ∧ write.replicas.1 ≠ write.replicas.2

variable {s s' : System} {w : MetadataWorker} {env : Env}

theorem Settled.joined {context : RequestContext} {write : PendingWrite} (settled : s.Settled path)
    (found : s.worker.findWrite context = some write) :
    Generated write.objectId ∧ s.Joined write.replicas.1 ∧ s.Joined write.replicas.2 := by
  obtain ⟨-, recorded, apart⟩ := settled.writes context write found
  obtain ⟨generated, none | ⟨-, first, second⟩⟩ := settled.record _ _ recorded
  · rw [none] at apart
    exact absurd rfl apart
  · exact ⟨generated, first, second⟩

/-- The record stays, and every session has one with the same object before it. -/
theorem Settled.kept (settled : s.Settled path) (joined : ∀ x replicas, stored s.worker path = some (x, replicas) →
      s.Joined replicas.1 → s.Joined replicas.2 → s'.Joined replicas.1 ∧ s'.Joined replicas.2)
    (record : stored s'.worker path = stored s.worker path)
    (writes : ∀ context write, s'.worker.findWrite context = some write →
      ∃ write₀, s.worker.findWrite context = some write₀ ∧ write.path = write₀.path ∧
        write.objectId = write₀.objectId ∧ write.replicas = write₀.replicas) : s'.Settled path where
  record x replicas found := by
    rw [record] at found
    obtain ⟨generated, none | ⟨apart, first, second⟩⟩ := settled.record x replicas found
    · exact ⟨generated, Or.inl none⟩
    · exact ⟨generated, Or.inr ⟨apart, joined x replicas found first second⟩⟩
  writes context write found := by
    obtain ⟨write₀, found₀, path, objectId, replicas⟩ := writes context write found
    rw [path, objectId, replicas, record]
    exact settled.writes context write₀ found₀

theorem stored_insert {w' : MetadataWorker} {k : FilePath} {m : FileMetadata}
    (data : w'.store.data = w.store.data.insert k m) (here : k = key path) :
    stored w' path = some (m.objId, m.replicaLocations) := by
  rw [stored, data, here, Assoc.lookup_insert_ite, if_pos rfl]
  rfl

/-- The record a `WriteFile` works with, seen from the path. -/
theorem Settled.target {req : WriteFileRequest} {m : FileMetadata} (settled : s.Settled path)
    (here : key req.path = key path) (target : s.worker.target env req.path m) :
    Generated m.objId ∧ (stored s.worker path = some (m.objId, m.replicaLocations) ∨
      m.replicaLocations = ([], []) ∧ ∀ context, s.worker.findWrite context = none) := by
  obtain ⟨-, found | ⟨missing, rfl⟩⟩ := target
  · have recorded : stored s.worker path = some (m.objId, m.replicaLocations) := by
      rw [stored, ← here, found]
      rfl
    exact ⟨(settled.record _ _ recorded).1, Or.inl recorded⟩
  · refine ⟨⟨env.first, env.second, rfl⟩, Or.inr ⟨rfl, fun context => ?_⟩⟩
    cases found : s.worker.findWrite context with
    | none => rfl
    | some write =>
        obtain ⟨-, recorded, -⟩ := settled.writes context write found
        rw [stored, ← here, missing] at recorded
        cases recorded

/-- As long as no replicas are recorded there are no sessions. -/
theorem Settled.unbound {x : Bytes} (settled : s.Settled path) (recorded : stored s.worker path = some (x, ([], [])))
    (context : RequestContext) : s.worker.findWrite context = none := by
  cases found : s.worker.findWrite context with
  | none => rfl
  | some write =>
      obtain ⟨-, recorded', apart⟩ := settled.writes context write found
      have replicas := (Prod.mk.inj (Option.some.inj (recorded.symm.trans recorded'))).2
      rw [← replicas] at apart
      exact absurd rfl apart

theorem findWrite_putWrite {w' : MetadataWorker} {context c : RequestContext} {write : PendingWrite}
    (writes : w'.pendingWrites = (w.putWrite context write).pendingWrites) :
    w'.findWrite c = if c.sender.id = context.sender.id ∧ c.requestId = context.requestId then some write
      else w.findWrite c := by
  rw [MetadataWorker.findWrite, writes, MetadataWorker.putWrite, Nested.find_put]
  rfl

theorem Settled.writeFile {req : WriteFileRequest} {status : ClientStatus} (settled : s.Settled path)
    (here : key req.path = key path) (available : ∀ node, s.worker.isAvailable node = true → s.Joined node)
    (joined : ∀ node, s.Joined node → s'.Joined node)
    (step : MetadataWorker.WriteFileStep env req s.worker s'.worker status) : s'.Settled path := by
  have same : ∀ {w' : MetadataWorker}, w'.pendingWrites = s.worker.pendingWrites → ∀ context,
      w'.findWrite context = s.worker.findWrite context := fun writes context => by
    rw [MetadataWorker.findWrite, writes, MetadataWorker.findWrite]
  have joined' : ∀ x replicas, stored s.worker path = some (x, replicas) → s.Joined replicas.1 → s.Joined replicas.2 →
      s'.Joined replicas.1 ∧ s'.Joined replicas.2 := fun _ _ _ first second => ⟨joined _ first, joined _ second⟩
  cases step with
  | refused _ bad data writes =>
      refine settled.kept joined' (by rw [stored, data, stored]) fun context write found => ?_
      exact ⟨write, (same writes context).symm.trans found, rfl, rfl, rfl⟩
  | emptied m m' target count objId replicas size data writes =>
      have recorded := stored_insert data here
      rw [objId, replicas] at recorded
      obtain ⟨generated, before | ⟨none, unwritten⟩⟩ := settled.target here target
      · refine settled.kept joined' (recorded.trans before.symm) fun context write found => ?_
        exact ⟨write, (same writes context).symm.trans found, rfl, rfl, rfl⟩
      · refine ⟨fun x replicas' found => ?_, fun context write found => ?_⟩
        · rw [recorded] at found
          cases found
          exact ⟨generated, Or.inl none⟩
        · rw [same writes, unwritten] at found
          cases found
  | opened m target count sized bound data free writes =>
      have record : stored s'.worker path = stored s.worker path := by rw [stored, data, stored]
      obtain ⟨-, before | ⟨none, -⟩⟩ := settled.target here target
      · refine ⟨fun x replicas found => ?_, fun context write found => ?_⟩
        · rw [record] at found
          obtain ⟨generated, none | ⟨apart, first, second⟩⟩ := settled.record x replicas found
          · exact ⟨generated, Or.inl none⟩
          · exact ⟨generated, Or.inr ⟨apart, joined _ first, joined _ second⟩⟩
        · rw [findWrite_putWrite writes] at found
          split at found
          · cases found
            exact ⟨here, record.trans before, bound.2.2⟩
          · rw [record]
            exact settled.writes context write found
      · rw [none] at bound
        exact absurd rfl bound.1
  | bound _ m m' target count sized unbound selected objId size data writes =>
      have recorded := stored_insert data here
      rw [objId] at recorded
      obtain ⟨apart, first, second⟩ := MetadataWorker.selectReplicas_spec selected
      obtain ⟨generated, before⟩ := settled.target here target
      have unwritten : ∀ context, s.worker.findWrite context = none := by
        rcases before with before | ⟨-, unwritten⟩
        · rw [unbound] at before
          exact settled.unbound before
        · exact unwritten
      refine ⟨fun x replicas found => ?_, fun context write found => ?_⟩
      · rw [recorded] at found
        cases found
        exact ⟨generated, Or.inr ⟨apart, joined _ (available _ first), joined _ (available _ second)⟩⟩
      · rcases writes with ⟨-, writes⟩ | ⟨-, -, writes⟩
        · rw [same writes, unwritten] at found
          cases found
        · rw [findWrite_putWrite writes, unwritten] at found
          split at found
          · cases found
            exact ⟨here, recorded, apart⟩
          · cases found

theorem Settled.writeChunk {req : WriteChunkRequest} {status : ClientStatus} (settled : s.Settled path)
    (joined : ∀ x replicas, stored s.worker path = some (x, replicas) → s.Joined replicas.1 → s.Joined replicas.2 →
      s'.Joined replicas.1 ∧ s'.Joined replicas.2)
    (step : MetadataWorker.WriteChunkStep req s.worker s'.worker status) : s'.Settled path := by
  have fewer : s'.worker.pendingWrites = (s.worker.discardWrite req.context).pendingWrites →
      ∀ context write, s'.worker.findWrite context = some write →
        ∃ write₀, s.worker.findWrite context = some write₀ ∧ write.path = write₀.path ∧
          write.objectId = write₀.objectId ∧ write.replicas = write₀.replicas := fun writes context write found =>
    ⟨write, MetadataWorker.findWrite_discardWrite writes found, rfl, rfl, rfl⟩
  cases step with
  | unknown none same =>
      refine settled.kept joined (by rw [stored, same.store, stored]) fun context write found => ⟨write, ?_, rfl, rfl, rfl⟩
      rwa [MetadataWorker.findWrite, same.pendingWrites] at found
  | rejected write found bad data writes =>
      exact settled.kept joined (by rw [stored, data, stored]) (fewer writes)
  | failed write found due data writes => exact settled.kept joined (by rw [stored, data, stored]) (fewer writes)
  | more write found due part data writes =>
      refine settled.kept joined (by rw [stored, data, stored]) fun context write' found' => ?_
      rw [findWrite_putWrite writes] at found'
      split at found'
      · rename_i own
        cases found'
        refine ⟨write, ?_, rfl, rfl, rfl⟩
        rw [MetadataWorker.findWrite, own.1, own.2]
        exact found
      · exact ⟨write', found', rfl, rfl, rfl⟩
  | finished _ write found due last data writes =>
      refine settled.kept joined ?_ (fewer writes)
      rcases data with ⟨-, data⟩ | ⟨-, -, m, objId, -, replicas, data⟩
      · rw [stored, data, stored]
      · obtain ⟨here, recorded, -⟩ := settled.writes _ write found
        rw [stored_insert data here, objId, replicas, recorded]

/-! ## The two counts -/

/-- A replica that counts as many chunks as the session has exactly these. -/
def Keeps (s : System) (node : NodeId) (write : PendingWrite) (chunks : List Bytes) : Prop :=
  ∀ peer, s.network.peers.lookup node = some peer →
    peer.worker.nextChunks.lookup write.objectId = some write.nextChunk →
      peer.worker.pending write.objectId = some chunks.flatten

structure Steady (path : Bytes) (o : Observed) : Prop where
  calm : o.system.Calm
  settled : o.system.Settled path
  progress : ∀ context write, o.system.worker.findWrite context = some write → o.last = some (sessionKey context) →
    write.nextChunk ≠ 0 → ∃ chunks, Nested.find o.own context.sender.id context.requestId = some chunks ∧
      chunks.length = write.nextChunk.toNat ∧ o.system.Keeps write.replicas.1 write chunks ∧
      o.system.Keeps write.replicas.2 write chunks

/-- What a replica has once it has taken the chunk of the request. -/
structure Extended (o : Observed) (req : WriteChunkRequest) (write : PendingWrite) (w : StorageWorker) : Prop where
  part : req.chunkIndex + 1 ≠ write.chunkCount →
    w.pending write.objectId = some (o.earlier req ++ [req.data]).flatten
  last : req.chunkIndex + 1 = write.chunkCount →
    w.committed write.objectId = some (o.earlier req ++ [req.data]).flatten

variable {o : Observed} {req : WriteChunkRequest} {write : PendingWrite} {script : List (List Act)}

theorem due_some (h : o.due req = some write) : o.system.worker.findWrite req.context = some write ∧ write.Due req := by
  obtain ⟨found, due⟩ := Option.filter_eq_some_iff.1 h
  exact ⟨found, by simpa using due⟩

theorem due_none (h : o.due req = none) (found : o.system.worker.findWrite req.context = some write) :
    ¬ write.Due req := fun due => by
  rw [Observed.due, found, Option.filter_some, if_pos (by simpa using due)] at h
  cases h

theorem index_succ (due : write.Due req) : (req.chunkIndex + 1).toNat = req.chunkIndex.toNat + 1 := by
  have below := UInt32.lt_iff_toNat_lt.1 due.2.1
  have small := write.chunkCount.toNat_lt
  rw [UInt32.toNat_add, UInt32.toNat_one, Nat.mod_eq_of_lt (by omega)]

theorem Steady.extended {asker : NodeIdentity} {w₁ w₂ w₁' w₂' : StorageWorker} (steady : Steady path o)
    (due : o.due req = some write) (uninterrupted : Uninterrupted o (.request (.writeChunk req) env script))
    (idle₁ : o.system.network.At write.replicas.1 (Idle w₁)) (idle₂ : o.system.network.At write.replicas.2 (Idle w₂))
    (done₁ : PutDone conditions w₁ (putFor asker req write) w₁')
    (done₂ : PutDone conditions w₂ (putFor asker req write) w₂') :
    (o.earlier req).length = write.nextChunk.toNat ∧ Extended o req write w₁' ∧ Extended o req write w₂' := by
  obtain ⟨peer₁, found₁, rfl, -⟩ := idle₁
  obtain ⟨peer₂, found₂, rfl, -⟩ := idle₂
  obtain ⟨found, index, -, -⟩ := due_some due
  -- if the chunk is not the first, both replicas have those before it
  have before : req.chunkIndex ≠ 0 → w₁.nextChunks.lookup write.objectId = some req.chunkIndex →
      w₂.nextChunks.lookup write.objectId = some req.chunkIndex →
      (o.earlier req).length = write.nextChunk.toNat ∧ w₁.pending write.objectId = some (o.earlier req).flatten ∧
        w₂.pending write.objectId = some (o.earlier req).flatten := fun later counts₁ counts₂ => by
    have own := uninterrupted write due later ⟨_, found₁, counts₁⟩ ⟨_, found₂, counts₂⟩
    obtain ⟨chunks, kept, length, keeps₁, keeps₂⟩ := steady.progress _ _ found own (index ▸ later)
    rw [Observed.earlier, if_neg later, kept, Option.getD_some]
    exact ⟨length, keeps₁ _ found₁ (index ▸ counts₁), keeps₂ _ found₂ (index ▸ counts₂)⟩
  have earlier : req.chunkIndex = 0 → o.earlier req = [] := fun first => if_pos first
  have due₁ := done₁.step.due
  have due₂ := done₂.step.due
  have extended : ∀ {w w'}, PutDone conditions w (putFor asker req write) w' →
      (req.chunkIndex ≠ 0 → w.nextChunks.lookup write.objectId = some req.chunkIndex →
        w.pending write.objectId = some (o.earlier req).flatten) → Extended o req write w' := fun done later =>
    have grown := done.grown earlier later
    ⟨fun part => grown.1 (decide_eq_false part), fun last => grown.2 (decide_eq_true last)⟩
  refine ⟨?_, extended done₁ fun later counts => ?_, extended done₂ fun later counts => ?_⟩
  · by_cases first : req.chunkIndex = 0
    · rw [earlier first, ← index, first]
      rfl
    · exact (before first (due₁.resolve_left first) (due₂.resolve_left first)).1
  · exact (before later counts (due₂.resolve_left later)).2.1
  · exact (before later (due₁.resolve_left later) counts).2.2

/-- A chunk that is due goes to two idle replicas. -/
theorem Steady.sent {r : Except Exn ClientStatus} (steady : Steady path o)
    (under : ∀ acts ∈ script, ∀ a ∈ acts, a.Under conditions) (due : o.due req = some write)
    (h : (o.system.prepared env script).writeChunk env req = (r, s')) :
    ∃ w₁ w₂, o.system.network.At write.replicas.1 (Idle w₁) ∧ o.system.network.At write.replicas.2 (Idle w₂) ∧
      ChunkSent conditions env req write (putFor o.system.network.self req write) w₁ w₂
        (o.system.prepared env script) s' r := by
  obtain ⟨found, isDue⟩ := due_some due
  obtain ⟨-, -, apart⟩ := steady.settled.writes _ write found
  obtain ⟨generated, first, second⟩ := steady.settled.joined found
  obtain ⟨w₁, idle₁⟩ := steady.calm.idle first
  obtain ⟨w₂, idle₂⟩ := steady.calm.idle second
  exact ⟨w₁, w₂, idle₁, idle₂, writeChunk_sent found isDue apart under idle₁ idle₂ (putFor_read generated isDue) h⟩

/-- A last chunk that is answered `Success` commits the chunks of its session. -/
theorem Steady.commitsOwn {e : SystemEvent} (steady : Steady path o) (writes : WritesOnly conditions path o e)
    (uninterrupted : Uninterrupted o e) : CommitsOwn o e := by
  unfold CommitsOwn
  split
  · rename_i req env script
    intro write s' due last h
    obtain ⟨-, isDue⟩ := due_some due
    have index := isDue.1
    obtain ⟨w₁, w₂, idle₁, idle₂, sent⟩ := steady.sent writes.2 due h
    cases sent with
    | failed _ bad store first second => exact absurd rfl bad
    | accepted status s₁ w₁' w₂' done₁ done₂ first second same accept =>
        obtain ⟨length, extended₁, extended₂⟩ := steady.extended due uninterrupted idle₁ idle₂ done₁ done₂
        obtain ⟨peer₁, found₁, rfl, -⟩ := first
        obtain ⟨peer₂, found₂, rfl, -⟩ := second
        refine ⟨?_, ⟨_, found₁, extended₁.last last⟩, ⟨_, found₂, extended₂.last last⟩⟩
        rw [List.length_append, length, ← index, ← last, index_succ isDue, List.length_singleton]
  · trivial

/-! ## One request -/

/-- A reply that leaves nothing under way went to no storage node. -/
theorem calm_of_respond {context : RequestContext} {encode : UInt64 → Frame}
    (calm : System.Calm (s.respond context encode)) :
    s.Calm ∧ (s.respond context encode).network.peers = s.network.peers := by
  have network : (s.respond context encode).network = s.network.send context.sender.id (encode context.requestId) := rfl
  rw [network]
  simp only [Calm, network] at calm
  unfold Cluster.send at calm ⊢
  split at calm
  · rename_i client
    exact ⟨calm, rfl⟩
  · rename_i peer replica
    have waits := (calm.2 context.sender.id _ (by rw [Assoc.lookup_insert_ite, if_pos rfl])).1
    simp at waits

theorem next_writeFile {req : WriteFileRequest} (h : s.next (.request (.writeFile req) env script) = .ok s') :
    ∃ status s₁, (s.prepared env script).writeFile env req = (status, s₁) ∧
      s' = s₁.respond req.context fun id => ClientProtocol.encodeWriteFileResponse id { status, context := req.context } := by
  rcases written : (s.prepared env script).writeFile env req with ⟨status, s₁⟩
  refine ⟨status, s₁, rfl, ?_⟩
  rw [← Except.ok.inj h]
  change handleWriteFile env req (s.prepared env script) = _
  rw [handleWriteFile, written]

theorem next_writeChunk (h : s.next (.request (.writeChunk req) env script) = .ok s') :
    ∃ status s₁, (s.prepared env script).writeChunk env req = (.ok status, s₁) ∧
      s' = s₁.respond req.context fun id => ClientProtocol.encodeWriteChunkResponse id
        { chunkIndex := req.chunkIndex, status, context := req.context } := by
  rcases written : (s.prepared env script).writeChunk env req with ⟨r, s₁⟩
  have handled : MetadataState.handle env (.writeChunk req) (s.scripted script) =
      handleWriteChunk env req (s.prepared env script) := rfl
  simp only [next, handled, handleWriteChunk, written] at h
  cases r with
  | error e => cases h
  | ok status => exact ⟨status, s₁, rfl, (Except.ok.inj h).symm⟩

/-- A chunk that is not due goes to no replica. -/
theorem writeChunk_undue (undue : ∀ write, s.worker.findWrite req.context = some write → ¬ write.Due req)
    {status : ClientStatus} (h : s.writeChunk env req = (.ok status, s')) :
    s'.network = s.network ∧ ∀ context write, s'.worker.findWrite context = some write →
      s.worker.findWrite context = some write := by
  unfold writeChunk at h
  split at h
  · cases h
    exact ⟨rfl, fun _ _ found => found⟩
  rename_i write found
  split at h
  · cases h
    exact ⟨rfl, fun _ _ found' => MetadataWorker.findWrite_discardWrite rfl found'⟩
  rename_i order
  split at h
  · cases h
    exact ⟨rfl, fun _ _ found' => MetadataWorker.findWrite_discardWrite rfl found'⟩
  rename_i sized
  simp only [not_or, ne_eq, not_not] at order sized
  exact absurd ⟨order.1, UInt32.not_le.1 order.2, sized⟩ (undue write found)

theorem joined_of_peers (peers : s'.network.peers = s.network.peers) (node : NodeId) (joined : s.Joined node) :
    s'.Joined node := by
  rw [Joined, peers]
  exact joined

theorem keeps_of_peers {node : NodeId} {chunks : List Bytes} (peers : s'.network.peers = s.network.peers)
    (keeps : s.Keeps node write chunks) : s'.Keeps node write chunks := by
  rw [Keeps, peers]
  exact keeps

/-- No chunk has been sent. -/
theorem Steady.quiet (steady : Steady path o) (calm : s'.Calm) (settled : s'.Settled path)
    (peers : s'.network.peers = o.system.network.peers)
    (writes : ∀ context write, s'.worker.findWrite context = some write →
      o.system.worker.findWrite context = some write ∨ write.nextChunk = 0) :
    Steady path { o with system := s' } where
  calm := calm
  settled := settled
  progress context write found own later := by
    obtain ⟨chunks, kept, length, first, second⟩ :=
      steady.progress context write ((writes context write found).resolve_right later) own later
    exact ⟨chunks, kept, length, keeps_of_peers peers first, keeps_of_peers peers second⟩

theorem discarded_failed {w' : MetadataWorker} {status : ClientStatus} (found : w.findWrite req.context = some write)
    (bad : status ≠ .success) (step : MetadataWorker.WriteChunkStep req w w' status) :
    w'.findWrite req.context = none := by
  have discarded : w'.pendingWrites = (w.discardWrite req.context).pendingWrites → w'.findWrite req.context = none :=
    fun writes => by
      rw [MetadataWorker.findWrite, writes, MetadataWorker.discardWrite, Nested.find_discard, if_pos ⟨rfl, rfl⟩]
  cases step with
  | unknown none same =>
      rw [found] at none
      cases none
  | more write found due part data writes => exact absurd rfl bad
  | rejected write found bad data writes => exact discarded writes
  | failed write found due data writes => exact discarded writes
  | finished _ write found due last data writes => exact discarded writes

/-- A session that is still there after an accepted chunk has one chunk more. -/
theorem acceptChunk_own {status : ClientStatus} {write' : PendingWrite} (h : s.acceptChunk env req write = (status, s'))
    (found : s'.worker.findWrite req.context = some write') :
    write' = { write with nextChunk := write.nextChunk + 1 } ∧ write.nextChunk + 1 ≠ write.chunkCount := by
  unfold acceptChunk at h
  dsimp only at h
  split at h
  · rename_i part
    cases h
    rw [findWrite_putWrite rfl, if_pos ⟨rfl, rfl⟩] at found
    exact ⟨(Option.some.inj found).symm, part⟩
  · cases h
    rw [MetadataWorker.findWrite, MetadataWorker.discardWrite, Nested.find_discard, if_pos ⟨rfl, rfl⟩] at found
    cases found

theorem Steady.writeFile {req : WriteFileRequest} (steady : Steady path o)
    (writes : WritesOnly conditions path o (.request (.writeFile req) env script))
    (h : o.system.next (.request (.writeFile req) env script) = .ok s') : Steady path { o with system := s' } := by
  have calm := writes.1 s' h
  obtain ⟨-, samePath, -, available⟩ := writes
  obtain ⟨status, s₁, written, rfl⟩ := next_writeFile h
  obtain ⟨-, peers⟩ := calm_of_respond calm
  obtain ⟨network, -, step⟩ := writeFile_step written
  rw [network] at peers
  refine steady.quiet calm ?_ peers fun context write found => ?_
  · have settled : (o.system.prepared env script).Settled path := ⟨steady.settled.record, steady.settled.writes⟩
    exact settled.writeFile (of_decide_eq_true samePath) available (joined_of_peers peers) step
  · replace found : s₁.worker.findWrite context = some write := found
    have same : ∀ {w' : MetadataWorker}, w'.pendingWrites = o.system.worker.pendingWrites →
        w'.findWrite context = o.system.worker.findWrite context := fun same => by
      rw [MetadataWorker.findWrite, same, MetadataWorker.findWrite]
    have opened : ∀ {w' : MetadataWorker} {replicas x}, w'.findWrite context = some write →
        w'.pendingWrites = (o.system.worker.putWrite req.context
          (MetadataWorker.sessionOf req x replicas)).pendingWrites →
        o.system.worker.findWrite context = some write ∨ write.nextChunk = 0 := fun found writes => by
      rw [findWrite_putWrite writes] at found
      split at found
      · cases found
        exact Or.inr rfl
      · exact Or.inl found
    cases step with
    | refused _ bad data writes => exact Or.inl ((same writes).symm.trans found)
    | emptied m m' target count objId replicas size data writes => exact Or.inl ((same writes).symm.trans found)
    | opened m target count sized bound data free writes => exact opened found writes
    | bound _ m m' target count sized unbound selected objId size data writes =>
        rcases writes with ⟨-, writes⟩ | ⟨-, -, writes⟩
        · exact Or.inl ((same writes).symm.trans found)
        · exact opened found writes

theorem Steady.writeChunk (steady : Steady path o)
    (writes : WritesOnly conditions path o (.request (.writeChunk req) env script))
    (uninterrupted : Uninterrupted o (.request (.writeChunk req) env script))
    (h : o.system.next (.request (.writeChunk req) env script) = .ok s') :
    Steady path (o.after (.request (.writeChunk req) env script) s') := by
  have calm := writes.1 s' h
  replace writes := writes.2
  obtain ⟨status, s₁, written, rfl⟩ := next_writeChunk h
  obtain ⟨-, peers⟩ := calm_of_respond calm
  have step := (writeChunk_step written).2
  have settled : (o.system.prepared env script).Settled path := ⟨steady.settled.record, steady.settled.writes⟩
  unfold Observed.after
  dsimp only
  split
  · rename_i undue
    obtain ⟨network, fewer⟩ := writeChunk_undue (s := o.system.prepared env script) (fun _ => due_none undue) written
    rw [network] at peers
    refine steady.quiet calm (settled.writeChunk (fun _ _ _ first second => ?_) step) peers fun context write found =>
      Or.inl (fewer context write found)
    exact ⟨joined_of_peers peers _ first, joined_of_peers peers _ second⟩
  · rename_i write due
    obtain ⟨found, isDue⟩ := due_some due
    obtain ⟨w₁, w₂, idle₁, idle₂, sent⟩ := steady.sent writes due written
    have there : Joined s₁ write.replicas.1 ∧ Joined s₁ write.replicas.2 := by
      cases sent with
      | failed _ bad store first second =>
          obtain ⟨peer₁, found₁, -⟩ := first
          obtain ⟨peer₂, found₂, -⟩ := second
          exact ⟨⟨peer₁, found₁⟩, ⟨peer₂, found₂⟩⟩
      | accepted _ _ w₁' w₂' done₁ done₂ first second same accept =>
          obtain ⟨peer₁, found₁, -⟩ := first
          obtain ⟨peer₂, found₂, -⟩ := second
          exact ⟨⟨peer₁, found₁⟩, ⟨peer₂, found₂⟩⟩
    refine ⟨calm, settled.writeChunk (fun x replicas recorded _ _ => ?_) step, fun context write' found' own later => ?_⟩
    · have same := (settled.writes _ write found).2.1.symm.trans recorded
      cases same
      exact ⟨joined_of_peers peers _ there.1, joined_of_peers peers _ there.2⟩
    · -- only the session of this chunk is the last one
      obtain ⟨client, id⟩ := Prod.mk.inj (Option.some.inj own)
      have found₁ : s₁.worker.findWrite req.context = some write' := by
        rw [MetadataWorker.findWrite, client, id]
        exact found'
      cases sent with
      | failed _ bad store first second =>
          have gone := discarded_failed (w := (o.system.prepared env script).worker) found
            (fun ok => bad (congrArg _ ok)) step
          rw [gone] at found₁
          cases found₁
      | accepted _ _ w₁' w₂' done₁ done₂ first second same accept =>
          obtain ⟨rfl, part⟩ := acceptChunk_own accept found₁
          obtain ⟨length, extended₁, extended₂⟩ := steady.extended due uninterrupted idle₁ idle₂ done₁ done₂
          rw [← isDue.1] at part
          refine ⟨o.earlier req ++ [req.data], ?_, ?_, ?_, ?_⟩
          · rw [Nested.find_put, if_pos ⟨client.symm, id.symm⟩]
          · rw [List.length_append, length, ← isDue.1, index_succ isDue, List.length_singleton]
          · refine keeps_of_peers peers fun peer at₁ _ => ?_
            obtain ⟨peer', found', rfl, -⟩ := first
            cases found'.symm.trans at₁
            exact extended₁.part part
          · refine keeps_of_peers peers fun peer at₂ _ => ?_
            obtain ⟨peer', found', rfl, -⟩ := second
            cases found'.symm.trans at₂
            exact extended₂.part part

theorem next_steady {o' : Observed} {e : SystemEvent} (steady : Steady path o) (writes : WritesOnly conditions path o e)
    (uninterrupted : Uninterrupted o e) (h : o.next e = .ok o') : Steady path o' := by
  unfold Observed.next at h
  split at h
  · cases h
  rename_i s' stepped
  cases h
  unfold WritesOnly at writes
  cases e with
  | request event env script =>
      cases event with
      | writeFile req => exact steady.writeFile writes stepped
      | writeChunk req => exact steady.writeChunk writes uninterrupted stepped
      | _ => exact absurd writes.2 id
  | storage acts => exact absurd writes.2 id
  | heartbeat now sender =>
      cases stepped
      exact steady.quiet (writes.1 _ rfl) ⟨steady.settled.record, steady.settled.writes⟩ rfl fun _ _ found => Or.inl found
  | checkTimeouts now =>
      cases stepped
      exact steady.quiet (writes.1 _ rfl) ⟨steady.settled.record, steady.settled.writes⟩ rfl fun _ _ found => Or.inl found

/-! ## Runs -/

/-- Nothing is under way, no session is open, and the record of the path, if there is one, names
two storage nodes or none. -/
structure Ready (path : Bytes) (s : System) : Prop where
  calm : s.Calm
  unwritten : s.worker.pendingWrites = ∅
  record : ∀ x replicas, stored s.worker path = some (x, replicas) → Generated x ∧
    (replicas = ([], []) ∨ replicas.1 ≠ replicas.2 ∧ s.Joined replicas.1 ∧ s.Joined replicas.2)

theorem Ready.steady (ready : o.system.Ready path) : Steady path o := by
  have none : ∀ c, o.system.worker.findWrite c = none := fun c => by
    rw [MetadataWorker.findWrite, ready.unwritten]
    exact Nested.find_empty _ _
  refine ⟨ready.calm, ⟨ready.record, fun context write found => ?_⟩, fun context write found => ?_⟩
  · rw [none] at found
    cases found
  · rw [none] at found
    cases found

/-- As long as the chunks of different sessions do not alternate, each session that ends with
`Success` commits its own chunks. -/
theorem sessions_apart {events : List SystemEvent} (ready : o.system.Ready path)
    (along : Along Observed.next (fun o e => WritesOnly conditions path o e ∧ Uninterrupted o e) o events) :
    Along Observed.next CommitsOwn o events :=
  along.of_invariant (fun _ _ _ steady holds stepped => next_steady steady holds.1 holds.2 stepped)
    (fun _ _ steady holds => steady.commitsOwn holds.1 holds.2) ready.steady

/-! ## Two sessions -/

theorem Observed.next_ok {e : SystemEvent} (h : o.system.next e = .ok s') : o.next e = .ok (o.after e s') := by
  rw [Observed.next, h]

/-- Both storage nodes are known. -/
def online : System :=
  { start with
    worker := (start.worker.handleHeartbeat ⟨0⟩ ⟨[97], .storage⟩).handleHeartbeat ⟨0⟩ ⟨[98], .storage⟩ }

/-- Client `"c"` starts to write file `"p"` under the request id `id`. -/
def opening (id fileSize : UInt64) (chunkCount : UInt32) : SystemEvent :=
  .request (.writeFile { fileSize, chunkCount, path := [112], context := fromClient id }) {} []

/-- A chunk that the client sends under this id. -/
def chunkOf (id : UInt64) (chunkIndex : UInt32) (data : Bytes) : WriteChunkRequest :=
  { chunkIndex, data, context := fromClient id }

def sending (req : WriteChunkRequest) : SystemEvent := .request (.writeChunk req) {} [served]

theorem lookup_online {node : NodeId} {peer : Peer} (found : online.network.peers.lookup node = some peer) :
    peer = newPeer := lookup_start found

theorem calm_of_online (peers : s.network.peers = online.network.peers) (queue : s.network.queue = []) : s.Calm := by
  refine ⟨queue, fun node peer found => ?_⟩
  rw [peers] at found
  rw [lookup_online found]
  exact ⟨rfl, rfl⟩

theorem online_ready : online.Ready [112] where
  calm := calm_of_online rfl rfl
  unwritten := rfl
  record x replicas found := by cases found

theorem online_apart (peers : s.network.peers = online.network.peers) : ¬ s.Joined [99] := by
  rintro ⟨peer, found⟩
  rw [peers] at found
  cases found

theorem online_at {node : NodeId} (peers : s.network.peers = online.network.peers) (queue : s.network.queue = [])
    (there : online.network.peers.lookup node = some newPeer) : s.network.At node (Idle newPeer.worker) :=
  ⟨newPeer, by rw [peers, there], rfl, by rw [Cluster.held, queue]; rfl⟩

/-- The nodes that count as available are there. -/
theorem available_joined (keys : ∀ node ∈ s.worker.storageNodes.keys, s.Joined node) (node : NodeId)
    (available : s.worker.isAvailable node = true) : s.Joined node := by
  refine keys node ?_
  rw [MetadataWorker.isAvailable] at available
  cases found : s.worker.storageNodes.lookup node with
  | none =>
      rw [found] at available
      cases available
  | some info => exact AList.mem_keys.1 (AList.lookup_isSome.1 (by rw [found]; rfl))

theorem writes_sending {req : WriteChunkRequest} (stepped : o.system.next (sending req) = .ok s') (calm : s'.Calm) :
    WritesOnly healthy path o (sending req) :=
  ⟨fun s₁ stepped' => by
    cases stepped.symm.trans stepped'
    exact calm, (by decide : ∀ acts ∈ [served], ∀ a ∈ acts, a.Under healthy)⟩

theorem writes_opening {id fileSize : UInt64} {chunkCount : UInt32}
    (stepped : o.system.next (opening id fileSize chunkCount) = .ok s') (calm : s'.Calm)
    (peers : o.system.network.peers = online.network.peers) (keys : o.system.worker.storageNodes.keys = [[98], [97]]) :
    WritesOnly healthy [112] o (opening id fileSize chunkCount) := by
  refine ⟨fun s₁ stepped' => ?_, (by decide : PosixPath.samePath [112] [112] = true), by simp,
    available_joined fun node mem => ?_⟩
  · cases stepped.symm.trans stepped'
    exact calm
  · rw [keys] at mem
    rw [Joined, peers]
    rcases List.mem_cons.1 mem with rfl | mem
    · exact ⟨newPeer, rfl⟩
    · rw [List.mem_singleton.1 mem]
      exact ⟨newPeer, rfl⟩

theorem sessions_apart_single : Along Observed.next CommitsOwn ⟨online, ∅, none⟩
    [opening 1 2 1, sending (chunkOf 1 0 [1, 2])] := by
  obtain ⟨s₁, opened₁, peers₁, queue₁, found₁⟩ : ∃ s₁ : System, online.next (opening 1 2 1) = .ok s₁ ∧
      s₁.network.peers = online.network.peers ∧ s₁.network.queue = [] ∧
      s₁.worker.findWrite (fromClient 1) = some ⟨[112], ObjectId.generate 0 0, 2, 1, 0, ([97], [98])⟩ :=
    ⟨_, rfl, rfl, rfl, by decide +kernel⟩
  have calm₁ := calm_of_online peers₁ queue₁
  have storable : Storable s₁ [served] (chunkOf 1 0 [1, 2]) ⟨[112], ObjectId.generate 0 0, 2, 1, 0, ([97], [98])⟩
      newPeer.worker newPeer.worker :=
    { calm := calm₁
      client := online_apart peers₁
      found := found₁
      due := ⟨rfl, by decide, by decide⟩
      apart := by decide
      under := by decide
      inTime := by decide
      first := online_at peers₁ queue₁ rfl
      second := online_at peers₁ queue₁ rfl
      expects₁ := ⟨⟨0, 0, rfl⟩, by simp [putFor, putOf, chunkOf, chunkSize], FileTree.flat_empty, Or.inl rfl⟩
      expects₂ := ⟨⟨0, 0, rfl⟩, by simp [putFor, putOf, chunkOf, chunkSize], FileTree.flat_empty, Or.inl rfl⟩ }
  obtain ⟨s₂, stored⟩ := storable.stored {}
  have along : Along Observed.next (fun o e => WritesOnly healthy [112] o e ∧ Uninterrupted o e) ⟨online, ∅, none⟩
      [opening 1 2 1, sending (chunkOf 1 0 [1, 2])] := by
    refine .of_step (Observed.next_ok opened₁) ⟨writes_opening opened₁ calm₁ rfl (by decide +kernel), trivial⟩ ?_
    refine .of_step (Observed.next_ok stored.stepped) ⟨writes_sending stored.stepped stored.calm, ?_⟩ trivial
    exact fun write due later => absurd rfl later
  exact sessions_apart online_ready along

/-- The session of request `id`, waiting for chunk `k` of two. -/
def session (k : UInt32) : PendingWrite :=
  { path := [112], objectId := ObjectId.generate 0 0, fileSize := 524289, chunkCount := 2, nextChunk := k,
    replicas := ([97], [98]) }

/-- The system after both sessions have been opened. -/
def opened : System :=
  handleWriteFile {} { fileSize := 524289, chunkCount := 2, path := [112], context := fromClient 2 }
    (prepared (handleWriteFile {} { fileSize := 524289, chunkCount := 2, path := [112], context := fromClient 1 }
      (online.prepared {} [])) {} [])

/-- Two sessions share the object; session `id` waits for chunk `n id`. -/
structure Sharing (n : UInt64 → UInt32) (w₁ w₂ : StorageWorker) (s : System) : Prop where
  calm : s.Calm
  client : ¬ s.Joined [99]
  sessions : ∀ id, id = 1 ∨ id = 2 → s.worker.findWrite (fromClient id) = some (session (n id))
  store : s.worker.store = opened.worker.store
  first : s.network.At [97] (Idle w₁)
  second : s.network.At [98] (Idle w₂)
  flat₁ : w₁.Flat
  flat₂ : w₂.Flat

theorem opened_sharing : Sharing (fun _ => 0) newPeer.worker newPeer.worker opened where
  calm := calm_of_online rfl rfl
  client := online_apart rfl
  sessions id which := by
    rcases which with rfl | rfl
    · decide +kernel
    · decide +kernel
  store := rfl
  first := online_at rfl rfl rfl
  second := online_at rfl rfl rfl
  flat₁ := FileTree.flat_empty
  flat₂ := FileTree.flat_empty

variable {n : UInt64 → UInt32} {w₁ w₂ : StorageWorker}

theorem Sharing.storable {id : UInt64} {data : Bytes} (sharing : Sharing n w₁ w₂ s) (which : id = 1 ∨ id = 2)
    (below : n id < 2) (length : data.length = (expectedSize 524289 (n id)).toNat)
    (due₁ : n id = 0 ∨ w₁.nextChunks.lookup (ObjectId.generate 0 0) = some (n id))
    (due₂ : n id = 0 ∨ w₂.nextChunks.lookup (ObjectId.generate 0 0) = some (n id)) :
    Storable s [served] (chunkOf id (n id) data) (session (n id)) w₁ w₂ where
  calm := sharing.calm
  client := sharing.client
  found := sharing.sessions id which
  due := ⟨rfl, below, length⟩
  apart := by simp [session]
  under := by decide
  inTime := (by decide : RepliesInTime ([97], [98]) [served])
  first := sharing.first
  second := sharing.second
  expects₁ := ⟨⟨0, 0, rfl⟩, length ▸ expectedSize_le _ _, sharing.flat₁, due₁⟩
  expects₂ := ⟨⟨0, 0, rfl⟩, length ▸ expectedSize_le _ _, sharing.flat₂, due₂⟩

/-- A first chunk of one of the sessions. -/
theorem Sharing.step {id : UInt64} (sharing : Sharing n w₁ w₂ s) (data : Bytes) (which : id = 1 ∨ id = 2)
    (zero : n id = 0) (length : data.length = chunkSize) :
    ∃ s' w₁' w₂', s.next (sending (chunkOf id 0 data)) = .ok s' ∧
      Sharing (fun i => if i = id then 1 else n i) w₁' w₂' s' ∧
      (∀ w, w = w₁' ∨ w = w₂' → w.nextChunks.lookup (ObjectId.generate 0 0) = some 1 ∧
        w.pending (ObjectId.generate 0 0) = some data) := by
  have storable := sharing.storable which (by rw [zero]; decide) (by rw [zero, length]; decide) (Or.inl zero) (Or.inl zero)
  rw [zero] at storable
  obtain ⟨s', stored⟩ := storable.stored {}
  obtain ⟨w₁', done₁, flat₁, first⟩ := stored.first
  obtain ⟨w₂', done₂, flat₂, second⟩ := stored.second
  obtain ⟨store, -, sessions⟩ := stored.part (by decide)
  have grown : ∀ {w w' : StorageWorker},
      PutDone healthy w (putFor s.network.self (chunkOf id 0 data) (session 0)) w' →
        w'.nextChunks.lookup (ObjectId.generate 0 0) = some 1 ∧ w'.pending (ObjectId.generate 0 0) = some data :=
    fun {w w'} done => by
      have last : (putFor s.network.self (chunkOf id 0 data) (session 0)).finalChunk = false := rfl
      refine ⟨?_, ?_⟩
      · cases done.step with
        | failed _ bad _ => exact absurd rfl bad
        | more part due next grown kept => exact next
        | commit final due next moved whole =>
            rw [last] at final
            cases final
      · have pending := (@PutDone.grown _ _ _ _ [] done (fun _ => rfl) fun later => absurd rfl later).1 last
        rwa [List.nil_append, List.flatten_singleton] at pending
  refine ⟨s', w₁', w₂', stored.stepped, ⟨stored.calm, fun joined => sharing.client ((stored.joined _).1 joined),
    fun i which' => ?_, ?_, first, second, flat₁, flat₂⟩, ?_⟩
  · rw [sessions]
    by_cases own : i = id
    · rw [if_pos ⟨rfl, own⟩, if_pos own]
      rfl
    · rw [if_neg fun same => own same.2, if_neg own]
      exact sharing.sessions i which'
  · rw [store]
    change (s.worker.withOutcomes []).store = opened.worker.store
    rw [MetadataWorker.withOutcomes, sharing.store]
    rfl
  · rintro w (rfl | rfl)
    · exact grown done₁
    · exact grown done₂

/-- The first chunks of both sessions, then the last chunk of the first one. -/
def mixed (a b : Bytes) : List SystemEvent :=
  [opening 1 524289 2, opening 2 524289 2, sending (chunkOf 1 0 a), sending (chunkOf 2 0 b), sending (chunkOf 1 1 [67])]

theorem due_of {write : PendingWrite} {req : WriteChunkRequest} (found : o.system.worker.findWrite req.context = some write)
    (due : write.Due req) : o.due req = some write := by
  rw [Observed.due, found, Option.filter_some, if_pos (by simpa using due)]

theorem after_due {write : PendingWrite} {req : WriteChunkRequest} (due : o.due req = some write) :
    o.after (sending req) s' =
      { system := s'
        own := Nested.put o.own req.context.sender.id req.context.requestId (o.earlier req ++ [req.data])
        last := some (sessionKey req.context) } := by
  simp only [sending, Observed.after, due]

/-- The last chunk of the first session is answered `Success`. -/
theorem Sharing.last (sharing : Sharing n w₁ w₂ s) (waits : n 1 = 1) (data : Bytes) (length : data.length = 1)
    (counts₁ : w₁.nextChunks.lookup (ObjectId.generate 0 0) = some 1)
    (counts₂ : w₂.nextChunks.lookup (ObjectId.generate 0 0) = some 1) :
    ∃ s' s'' : System, s.next (sending (chunkOf 1 1 data)) = .ok s' ∧ s'.Calm ∧
      (s.prepared {} [served]).writeChunk {} (chunkOf 1 1 data) = (.ok .success, s'') ∧
      s''.Holds [97] (ObjectId.generate 0 0) ((w₁.pending (ObjectId.generate 0 0)).getD [] ++ data) := by
  have storable : Storable s [served] (chunkOf 1 (n 1) data) (session (n 1)) w₁ w₂ :=
    sharing.storable (Or.inl rfl) (by rw [waits]; decide) (by rw [waits, length]; decide)
      (Or.inr (by rw [waits, counts₁])) (Or.inr (by rw [waits, counts₂]))
  rw [waits] at storable
  obtain ⟨s', stored⟩ := storable.stored {}
  obtain ⟨s₁, same, -, peers, written⟩ := stored.accepted
  obtain ⟨w', done, -, peer, found, rfl, -⟩ := stored.first
  have store : s₁.worker.store = (opened.worker.withOutcomes []).store := by
    rw [same.store]
    change (s.worker.withOutcomes []).store = _
    rw [MetadataWorker.withOutcomes, sharing.store]
    rfl
  have success : (s₁.acceptChunk {} (chunkOf 1 1 data) (session 1)).1 = .success := by
    change getClientStatus (MetadataStore.updateMetadata ⟨0⟩ [112]
      { path := [112], size := 524289, objId := ObjectId.generate 0 0, replicaLocations := ([97], [98]) }
      s₁.worker.store).1 = .success
    rw [store]
    decide +kernel
  have network : (s₁.acceptChunk {} (chunkOf 1 1 data) (session 1)).2.network = s₁.network :=
    acceptChunk_network (Prod.ext rfl rfl)
  rw [success] at written
  refine ⟨s', _, stored.stepped, stored.calm, written, ?_⟩
  rw [Holds, network, ← peers]
  refine ⟨_, found, ?_⟩
  cases done.step with
  | failed _ bad _ => exact absurd rfl bad
  | more part due next grown kept =>
      have last : (putFor s.network.self (chunkOf 1 1 data) (session 1)).finalChunk = true := rfl
      rw [last] at part
      cases part
  | commit last due next moved whole =>
      have later : ¬ (putFor s.network.self (chunkOf 1 1 data) (session 1)).chunkIndex = 0 :=
        (by decide : ¬ (1 : UInt32) = 0)
      rw [StorageWorker.base, if_neg later] at whole
      exact whole

/-- The whole run: if sessions committed their own chunks, both would have the same ones. -/
theorem mixed_run {a b : Bytes} (lengthA : a.length = chunkSize) (lengthB : b.length = chunkSize) :
    Along Observed.next (WritesOnly healthy [112]) ⟨online, ∅, none⟩ (mixed a b) ∧
      (Along Observed.next CommitsOwn ⟨online, ∅, none⟩ (mixed a b) → a ++ [67] = b ++ [67]) := by
  obtain ⟨s₁, opened₁, peers₁, queue₁, keys₁, stepped₁⟩ : ∃ s₁ : System, online.next (opening 1 524289 2) = .ok s₁ ∧
      s₁.network.peers = online.network.peers ∧ s₁.network.queue = [] ∧ s₁.worker.storageNodes.keys = [[98], [97]] ∧
      s₁.next (opening 2 524289 2) = .ok opened := ⟨_, rfl, rfl, rfl, by decide +kernel, rfl⟩
  obtain ⟨s₃, u₁, u₂, stepped₃, sharing₃, -⟩ := opened_sharing.step a (Or.inl rfl) rfl lengthA
  obtain ⟨s₄, v₁, v₂, stepped₄, sharing₄, has⟩ := sharing₃.step b (Or.inr rfl) rfl lengthB
  obtain ⟨counts₁, pending₁⟩ := has v₁ (Or.inl rfl)
  obtain ⟨counts₂, -⟩ := has v₂ (Or.inr rfl)
  obtain ⟨s₅, s₅', stepped₅, calm₅, written, holds⟩ := sharing₄.last rfl [67] rfl counts₁ counts₂
  -- what is observed on the way
  have size : chunkSize = (expectedSize 524289 0).toNat := by decide
  have due₂ : (Observed.mk opened ∅ none).due (chunkOf 1 0 a) = some (session 0) :=
    due_of (opened_sharing.sessions 1 (Or.inl rfl)) ⟨rfl, (by decide : (0 : UInt32) < 2), lengthA.trans size⟩
  have after₃ := @after_due s₃ _ _ _ due₂
  have due₃ : (Observed.mk s₃ (Nested.put ∅ [99] 1 [a]) (some ([99], 1))).due (chunkOf 2 0 b) = some (session 0) :=
    due_of (sharing₃.sessions 2 (Or.inr rfl)) ⟨rfl, (by decide : (0 : UInt32) < 2), lengthB.trans size⟩
  have after₄ := @after_due s₄ _ _ _ due₃
  set o₄ : Observed := ⟨s₄, Nested.put (Nested.put ∅ [99] 1 [a]) [99] 2 [b], some ([99], 2)⟩
  have next₃ : Observed.next ⟨opened, ∅, none⟩ (sending (chunkOf 1 0 a)) =
      .ok ⟨s₃, Nested.put ∅ [99] 1 [a], some ([99], 1)⟩ := (Observed.next_ok stepped₃).trans (congrArg _ after₃)
  have next₄ : Observed.next ⟨s₃, Nested.put ∅ [99] 1 [a], some ([99], 1)⟩ (sending (chunkOf 2 0 b)) = .ok o₄ :=
    (Observed.next_ok stepped₄).trans (congrArg _ after₄)
  refine ⟨?_, fun commits => ?_⟩
  · refine .of_step (Observed.next_ok opened₁) (writes_opening opened₁ (calm_of_online peers₁ queue₁) rfl (by decide +kernel)) ?_
    refine .of_step (Observed.next_ok stepped₁) (writes_opening stepped₁ opened_sharing.calm peers₁ keys₁) ?_
    refine .of_step next₃ (writes_sending stepped₃ sharing₃.calm) ?_
    refine .of_step next₄ (writes_sending stepped₄ sharing₄.calm) ?_
    exact .of_step (Observed.next_ok stepped₅) (writes_sending stepped₅ calm₅) trivial
  · have last : CommitsOwn o₄ (sending (chunkOf 1 1 [67])) :=
      ((((commits.2 _ (Observed.next_ok opened₁)).2 _ (Observed.next_ok stepped₁)).2 _ next₃).2 _ next₄).1
    have due₄ : o₄.due (chunkOf 1 1 [67]) = some (session 1) :=
      due_of (sharing₄.sessions 1 (Or.inl rfl)) ⟨rfl, by decide, by decide⟩
    obtain ⟨-, ⟨peer, found, whole⟩, -⟩ := last (session 1) s₅' due₄ rfl written
    obtain ⟨peer', found', whole'⟩ := holds
    cases found.symm.trans found'
    have same := Option.some.inj (whole.symm.trans whole')
    have earlier : o₄.earlier (chunkOf 1 1 [67]) = [a] := rfl
    rw [earlier, pending₁, Option.getD_some] at same
    simpa [chunkOf] using same

/-- Between the chunks of one session the other one can start the object anew: then a last chunk
that is answered `Success` commits the chunk of the other session. -/
theorem chunks_mixed : ¬ ∀ (path : Bytes) (o : Observed) (events : List SystemEvent), o.system.Ready path →
    Along Observed.next (WritesOnly healthy path) o events → Along Observed.next CommitsOwn o events := by
  intro always
  obtain ⟨along, same⟩ := mixed_run (a := List.replicate chunkSize 65) (b := List.replicate chunkSize 66)
    List.length_replicate List.length_replicate
  have heads := congrArg List.head? (same (always _ _ _ online_ready along))
  rw [List.head?_append, List.head?_append, List.head?_replicate, List.head?_replicate, if_neg (by decide)] at heads
  cases heads

end System

end Dfs
