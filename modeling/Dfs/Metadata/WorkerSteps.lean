import Dfs.Metadata.StoreData
import Dfs.Metadata.MetadataWorker

/-!
# What the handlers of the metadata worker can do

One inversion lemma for each handler that changes records or sessions, for any network: what
the replies are shows only in which alternative a handler takes.
-/

namespace Dfs

open Lib

/-- The checks a `WriteChunk` has to pass before its chunk is sent. -/
def PendingWrite.Due (write : PendingWrite) (req : WriteChunkRequest) : Prop :=
  req.chunkIndex = write.nextChunk ∧ req.chunkIndex < write.chunkCount ∧
    req.data.length = (expectedSize write.fileSize req.chunkIndex).toNat

namespace MetadataWorker

variable {w w' w'' : MetadataWorker}

/-- Records and sessions are the same. -/
structure SameTables (w w' : MetadataWorker) : Prop where
  store : w'.store = w.store
  pendingReads : w'.pendingReads = w.pendingReads
  pendingWrites : w'.pendingWrites = w.pendingWrites

theorem SameTables.refl (w : MetadataWorker) : SameTables w w := ⟨rfl, rfl, rfl⟩

theorem SameTables.trans (h : SameTables w w') (h' : SameTables w' w'') : SameTables w w'' :=
  ⟨h'.store.trans h.store, h'.pendingReads.trans h.pendingReads, h'.pendingWrites.trans h.pendingWrites⟩

theorem setBytesLeft_same (w : MetadataWorker) (node : NodeId) (bytesLeft : UInt64) :
    SameTables w (w.setBytesLeft node bytesLeft) := by
  unfold setBytesLeft
  split <;> exact ⟨rfl, rfl, rfl⟩

/-- The record a `WriteFile` works with: the one of the path, or a new one. -/
def target (w : MetadataWorker) (env : Env) (path : Bytes) (m : FileMetadata) : Prop :=
  MetadataStore.validFilename path = true ∧
    (w.store.data.lookup (MetadataStore.key path) = some m ∨
      w.store.data.lookup (MetadataStore.key path) = none ∧
        m = { path, size := 0, objId := env.objectId, replicaLocations := ([], []) })

/-- The session a `WriteFile` opens. -/
def sessionOf (req : WriteFileRequest) (objectId : Bytes) (replicas : NodeId × NodeId) : PendingWrite :=
  { path := req.path, objectId, fileSize := req.fileSize, chunkCount := req.chunkCount, nextChunk := 0, replicas }

/-- What a `WriteFile` answered with a status does to records and write sessions. -/
inductive WriteFileStep (env : Env) (req : WriteFileRequest) (w w' : MetadataWorker) : ClientStatus → Prop where
  | refused (status : ClientStatus) (bad : status ≠ .success) (data : w'.store.data = w.store.data)
      (writes : w'.pendingWrites = w.pendingWrites) : WriteFileStep env req w w' status
  | emptied (m m' : FileMetadata) (target : w.target env req.path m) (count : req.chunkCount = 0)
      (objId : m'.objId = m.objId) (replicas : m'.replicaLocations = m.replicaLocations) (size : m'.size = 0)
      (data : w'.store.data = w.store.data.insert (MetadataStore.key req.path) m')
      (writes : w'.pendingWrites = w.pendingWrites) : WriteFileStep env req w w' .success
  | opened (m : FileMetadata) (target : w.target env req.path m) (count : req.chunkCount ≠ 0)
      (sized : chunksOf req.fileSize = req.chunkCount.toUInt64)
      (bound : m.replicaLocations.1 ≠ [] ∧ m.replicaLocations.2 ≠ [] ∧ m.replicaLocations.1 ≠ m.replicaLocations.2)
      (data : w'.store.data = w.store.data) (free : w.findWrite req.context = none)
      (writes : w'.pendingWrites = (w.putWrite req.context (sessionOf req m.objId m.replicaLocations)).pendingWrites) :
      WriteFileStep env req w w' .success
  | bound (status : ClientStatus) (m m' : FileMetadata) (target : w.target env req.path m) (count : req.chunkCount ≠ 0)
      (sized : chunksOf req.fileSize = req.chunkCount.toUInt64)
      (unbound : m.replicaLocations = ([], [])) (selected : w.selectReplicas = some m'.replicaLocations)
      (objId : m'.objId = m.objId) (size : m'.size = m.size)
      (data : w'.store.data = w.store.data.insert (MetadataStore.key req.path) m')
      (writes : (status ≠ .success ∧ w'.pendingWrites = w.pendingWrites) ∨
        (status = .success ∧ w.findWrite req.context = none ∧
          w'.pendingWrites = (w.putWrite req.context (sessionOf req m.objId m'.replicaLocations)).pendingWrites)) :
      WriteFileStep env req w w' status

/-- What a `WriteChunk` does to records and write sessions. -/
inductive WriteChunkStep (req : WriteChunkRequest) (w w' : MetadataWorker) : ClientStatus → Prop where
  | unknown (none : w.findWrite req.context = none) (same : SameTables w w') : WriteChunkStep req w w' .inputError
  | rejected (write : PendingWrite) (found : w.findWrite req.context = some write)
      (bad : req.chunkIndex ≠ write.nextChunk ∨ req.chunkIndex ≥ write.chunkCount ∨
        req.data.length ≠ (expectedSize write.fileSize req.chunkIndex).toNat)
      (data : w'.store.data = w.store.data)
      (writes : w'.pendingWrites = (w.discardWrite req.context).pendingWrites) : WriteChunkStep req w w' .inputError
  | failed (write : PendingWrite) (found : w.findWrite req.context = some write)
      (due : req.chunkIndex = write.nextChunk ∧ req.chunkIndex < write.chunkCount)
      (data : w'.store.data = w.store.data)
      (writes : w'.pendingWrites = (w.discardWrite req.context).pendingWrites) : WriteChunkStep req w w' .serverError
  | more (write : PendingWrite) (found : w.findWrite req.context = some write)
      (due : req.chunkIndex = write.nextChunk ∧ req.chunkIndex < write.chunkCount)
      (part : write.nextChunk + 1 ≠ write.chunkCount) (data : w'.store.data = w.store.data)
      (writes : w'.pendingWrites =
        (w.putWrite req.context { write with nextChunk := write.nextChunk + 1 }).pendingWrites) :
      WriteChunkStep req w w' .success
  | finished (status : ClientStatus) (write : PendingWrite) (found : w.findWrite req.context = some write)
      (due : req.chunkIndex = write.nextChunk ∧ req.chunkIndex < write.chunkCount)
      (last : write.nextChunk + 1 = write.chunkCount)
      (data : (status ≠ .success ∧ w'.store.data = w.store.data) ∨
        (status = .success ∧ MetadataStore.validFilename write.path = true ∧ ∃ m : FileMetadata,
          m.objId = write.objectId ∧ m.size = write.fileSize ∧ m.replicaLocations = write.replicas ∧
          w'.store.data = w.store.data.insert (MetadataStore.key write.path) m))
      (writes : w'.pendingWrites = (w.discardWrite req.context).pendingWrites) : WriteChunkStep req w w' status

/-- What one client request does to records and write sessions. -/
inductive TableStep (env : Env) (w w' : MetadataWorker) : ClientEvent → Prop where
  | still (event : ClientEvent) (data : w'.store.data = w.store.data) (writes : w'.pendingWrites = w.pendingWrites) :
      TableStep env w w' event
  | created (req : CreateFileRequest) (m : FileMetadata) (valid : MetadataStore.validFilename req.path = true)
      (free : w.store.data.lookup (MetadataStore.key req.path) = none) (objId : m.objId = env.objectId)
      (data : w'.store.data = w.store.data.insert (MetadataStore.key req.path) m)
      (writes : w'.pendingWrites = w.pendingWrites) : TableStep env w w' (.createFile req)
  | writeFile (req : WriteFileRequest) (status : ClientStatus) (step : WriteFileStep env req w w' status) :
      TableStep env w w' (.writeFile req)
  | writeChunk (req : WriteChunkRequest) (status : ClientStatus) (step : WriteChunkStep req w w' status) :
      TableStep env w w' (.writeChunk req)
  | removed (req : RemoveRequest) (data : w'.store.data = w.store.data.erase (MetadataStore.key req.path))
      (writes : w'.pendingWrites = w.pendingWrites) : TableStep env w w' (.remove req)
  | renamed (req : RenameRequest) (data : w'.store.data = (w.store.rename req.oldPath req.newPath).2.data)
      (writes : w'.pendingWrites = w.pendingWrites) : TableStep env w w' (.rename req)

end MetadataWorker

namespace MetadataState

open MetadataWorker

variable {ν : Type} [Network ν] {s s' : MetadataState ν} {env : Env}

theorem getClientStatus_success {α : Type} {r : Except MetadataStoreError α} (h : getClientStatus r = .success) :
    ∃ a, r = .ok a := by
  cases r with
  | ok a => exact ⟨a, rfl⟩
  | error e => cases e <;> cases h

theorem getClientStatus_error {α : Type} (e : MetadataStoreError) :
    getClientStatus (.error e : Except MetadataStoreError α) ≠ .success := fun h => by
  obtain ⟨a, ok⟩ := getClientStatus_success h
  cases ok

theorem target_found {w : MetadataWorker} {path : Bytes} {m : FileMetadata}
    (found : w.store.getMetadata path = .ok m) : w.target env path m :=
  ⟨(MetadataStore.getMetadata_ok found).1, Or.inl (MetadataStore.getMetadata_ok found).2⟩

theorem target_new {w : MetadataWorker} {path : Bytes} (missing : w.store.getMetadata path = .error .notFound) :
    w.target env path { path, size := 0, objId := env.objectId, replicaLocations := ([], []) } :=
  ⟨(MetadataStore.getMetadata_notFound missing).1, Or.inr ⟨(MetadataStore.getMetadata_notFound missing).2, rfl⟩⟩

/-! ## `WriteFile` -/

omit [Network ν] in
theorem openWrite_step {req : WriteFileRequest} {objectId : Bytes} {replicas : NodeId × NodeId} {status : ClientStatus}
    (h : s.openWrite req objectId replicas = (status, s')) :
    (status ≠ .success ∧ s' = s) ∨
      (status = .success ∧ s.worker.findWrite req.context = none ∧
        s' = { s with worker := s.worker.putWrite req.context (sessionOf req objectId replicas) }) := by
  unfold openWrite at h
  split at h
  · cases h
    exact Or.inl ⟨by simp, rfl⟩
  · rename_i free
    cases h
    exact Or.inr ⟨rfl, free, rfl⟩

omit [Network ν] in
theorem startWrite_step {req : WriteFileRequest} {m : FileMetadata} {status : ClientStatus}
    (target : s.worker.target env req.path m) (sized : chunksOf req.fileSize = req.chunkCount.toUInt64)
    (h : s.startWrite env req m = (status, s')) :
    s'.network = s.network ∧ s'.worker.pendingReads = s.worker.pendingReads ∧
      WriteFileStep env req s.worker s'.worker status := by
  unfold startWrite at h
  dsimp only at h
  split at h
  · cases h
    exact ⟨rfl, rfl, .refused _ (by simp) rfl rfl⟩
  split at h
  · cases h
    exact ⟨rfl, rfl, .refused _ (by simp) rfl rfl⟩
  rename_i whole
  split at h
  · cases h
    exact ⟨rfl, rfl, .refused _ (by simp) rfl rfl⟩
  rename_i apart
  simp only [halfBound, doubled, bne_iff_ne, ne_eq, decide_eq_decide, not_not, Bool.and_eq_true, decide_eq_true_eq,
    not_and] at whole apart
  split at h
  · rename_i empty
    rcases updated : MetadataStore.updateMetadata env.now req.path { m with size := 0 } s.worker.store with ⟨r, store⟩
    simp only [onStore, updated] at h
    obtain ⟨failed, done⟩ := MetadataStore.updateMetadata_data updated
    cases r with
    | error e =>
        cases h
        exact ⟨rfl, rfl, .refused _ (by simp) (failed e rfl) rfl⟩
    | ok _ =>
        cases h
        obtain ⟨-, m', same, data⟩ := done rfl
        exact ⟨rfl, rfl, .emptied m m' target empty same.objId same.replicaLocations same.size data rfl⟩
  rename_i some
  split at h
  · rename_i bound
    have bound₁ : m.replicaLocations.1 ≠ [] := by simpa using bound
    split at h
    · rcases openWrite_step h with ⟨bad, rfl⟩ | ⟨rfl, free, rfl⟩
      · exact ⟨rfl, rfl, .refused _ bad rfl rfl⟩
      · exact ⟨rfl, rfl, .opened m target some sized ⟨bound₁, whole.1 bound₁, apart bound₁⟩ rfl free rfl⟩
    · cases h
      exact ⟨rfl, rfl, .refused _ (by simp) rfl rfl⟩
  · rename_i unbound
    have unbound₁ : m.replicaLocations.1 = [] := by simpa using unbound
    split at h
    · cases h
      exact ⟨rfl, rfl, .refused _ (by simp) rfl rfl⟩
    · rename_i replicas selected
      rcases updated : MetadataStore.updateMetadata env.now req.path { m with replicaLocations := replicas }
        s.worker.store with ⟨r, store⟩
      simp only [onStore, updated] at h
      obtain ⟨failed, done⟩ := MetadataStore.updateMetadata_data updated
      cases r with
      | error e =>
          cases h
          exact ⟨rfl, rfl, .refused _ (by simp) (failed e rfl) rfl⟩
      | ok _ =>
          obtain ⟨-, m', same, data⟩ := done rfl
          have none : m.replicaLocations = ([], []) := Prod.ext unbound₁ (Classical.byContradiction fun e => whole.2 e unbound₁)
          have replicas_eq : m'.replicaLocations = replicas := same.replicaLocations
          rcases openWrite_step h with ⟨bad, rfl⟩ | ⟨rfl, free, rfl⟩
          · exact ⟨rfl, rfl, .bound _ m m' target some sized none (replicas_eq ▸ selected) same.objId same.size data
              (Or.inl ⟨bad, rfl⟩)⟩
          · exact ⟨rfl, rfl, .bound _ m m' target some sized none (replicas_eq ▸ selected) same.objId same.size data
              (Or.inr ⟨rfl, free, by rw [replicas_eq]; rfl⟩)⟩

omit [Network ν] in
theorem writeFile_step {req : WriteFileRequest} {status : ClientStatus} (h : s.writeFile env req = (status, s')) :
    s'.network = s.network ∧ s'.worker.pendingReads = s.worker.pendingReads ∧
      WriteFileStep env req s.worker s'.worker status := by
  unfold writeFile at h
  split at h
  · cases h
    exact ⟨rfl, rfl, .refused _ (by simp) rfl rfl⟩
  · rename_i sized
    replace sized := Classical.not_not.1 sized
    split at h
    · rename_i found
      exact startWrite_step (target_found found) sized h
    · rename_i missing
      exact startWrite_step (target_new missing) sized h
    · cases h
      exact ⟨rfl, rfl, .refused _ (by simp) rfl rfl⟩

/-! ## Waiting for storage nodes -/

theorem awaitPut_same {req : WriteChunkRequest} {replica : NodeId} {r : Except Exn Bool}
    (h : s.awaitPut req replica = (r, s')) : SameTables s.worker s'.worker := by
  unfold awaitPut receiveIf at h
  dsimp only at h
  split at h
  · rename_i received
    cases (Prod.mk.inj received).2
    cases h
    exact .refl _
  · rename_i received
    cases (Prod.mk.inj received).2
    split at h <;> cases h
    · exact .refl _
    · exact setBytesLeft_same _ _ _

theorem awaitPuts_same {req : WriteChunkRequest} {replicas : NodeId × NodeId} {r : Except Exn Bool}
    (h : s.awaitPuts req replicas = (r, s')) : SameTables s.worker s'.worker := by
  unfold awaitPuts at h
  split at h
  · rename_i first
    cases h
    exact awaitPut_same first
  · rename_i first
    have same := awaitPut_same first
    split at h <;> rename_i second <;> cases h <;> exact same.trans (awaitPut_same second)

theorem fetchChunk_same {req : ReadChunkRequest} {objectId : Bytes} {expected : UInt32} {nodes : List NodeId}
    {r : Option Bytes} (h : s.fetchChunk req objectId expected nodes = (r, s')) : SameTables s.worker s'.worker := by
  induction nodes generalizing s with
  | nil =>
      cases h
      exact .refl _
  | cons node rest ih =>
      unfold fetchChunk at h
      split at h
      · exact ih h
      · dsimp only [receiveIf, send] at h
        split at h
        · rename_i received
          cases (Prod.mk.inj received).2
          have same := ih h
          exact ⟨same.store, same.pendingReads, same.pendingWrites⟩
        · rename_i received
          cases (Prod.mk.inj received).2
          split at h
          · have same := ih h
            exact ⟨same.store, same.pendingReads, same.pendingWrites⟩
          · cases h
            exact ⟨rfl, rfl, rfl⟩

theorem awaitDelete_worker (s : MetadataState ν) (id : UInt64) (replica : NodeId) :
    (s.awaitDelete id replica).2.worker = s.worker := by
  unfold awaitDelete receiveIf
  dsimp only
  split
  · rename_i received
    cases (Prod.mk.inj received).2
    rfl
  · rename_i received
    cases (Prod.mk.inj received).2
    split <;> rfl

/-! ## `WriteChunk` -/

omit [Network ν] in
theorem acceptChunk_network {req : WriteChunkRequest} {write : PendingWrite} {status : ClientStatus}
    (h : s.acceptChunk env req write = (status, s')) : s'.network = s.network := by
  unfold acceptChunk at h
  dsimp only at h
  split at h <;> cases h <;> rfl

omit [Network ν] in
theorem acceptChunk_step {req : WriteChunkRequest} {write : PendingWrite} {status : ClientStatus}
    (found : s.worker.findWrite req.context = some write)
    (due : req.chunkIndex = write.nextChunk ∧ req.chunkIndex < write.chunkCount)
    (h : s.acceptChunk env req write = (status, s')) :
    s'.network = s.network ∧ s'.worker.pendingReads = s.worker.pendingReads ∧
      WriteChunkStep req s.worker s'.worker status := by
  unfold acceptChunk at h
  dsimp only at h
  split at h
  · rename_i part
    cases h
    exact ⟨rfl, rfl, .more write found due part rfl rfl⟩
  · rename_i last
    rcases updated : MetadataStore.updateMetadata env.now write.path
      { path := write.path, size := write.fileSize, objId := write.objectId, replicaLocations := write.replicas }
      s.worker.store with ⟨r, store⟩
    simp only [onStore, updated, Prod.mk.injEq] at h
    obtain ⟨rfl, rfl⟩ := h
    obtain ⟨failed, done⟩ := MetadataStore.updateMetadata_data updated
    refine ⟨rfl, rfl, .finished _ write found due (Classical.not_not.1 last) ?_ rfl⟩
    cases r with
    | error e => exact Or.inl ⟨getClientStatus_error e, failed e rfl⟩
    | ok _ =>
        obtain ⟨valid, m, same, data⟩ := done rfl
        exact Or.inr ⟨rfl, valid, m, same.objId, same.size, same.replicaLocations, data⟩

theorem writeChunk_step {req : WriteChunkRequest} {status : ClientStatus}
    (h : s.writeChunk env req = (.ok status, s')) :
    s'.worker.pendingReads = s.worker.pendingReads ∧ WriteChunkStep req s.worker s'.worker status := by
  unfold writeChunk at h
  split at h
  · rename_i none
    cases h
    exact ⟨rfl, .unknown none (.refl _)⟩
  rename_i write found
  split at h
  · rename_i bad
    cases h
    exact ⟨rfl, .rejected write found (bad.imp_right Or.inl) rfl rfl⟩
  rename_i due
  simp only [not_or, ne_eq, not_not] at due
  replace due : req.chunkIndex = write.nextChunk ∧ req.chunkIndex < write.chunkCount :=
    ⟨due.1, UInt32.not_le.1 due.2⟩
  split at h
  · rename_i bad
    cases h
    exact ⟨rfl, .rejected write found (Or.inr (Or.inr bad)) rfl rfl⟩
  dsimp only at h
  split at h
  · cases h
  · rename_i s₁ waited
    cases h
    have same := awaitPuts_same waited
    refine ⟨same.pendingReads, .failed write found due (congrArg MetadataStore.data same.store) ?_⟩
    simp only [discardWrite, same.pendingWrites]
    rfl
  · rename_i s₁ waited
    have same := awaitPuts_same waited
    rcases accepted : s₁.acceptChunk env req write with ⟨status', s₂⟩
    rw [accepted] at h
    cases h
    have found₁ : s₁.worker.findWrite req.context = some write := by
      rw [findWrite, same.pendingWrites]
      exact found
    have data₁ : s₁.worker.store.data = s.worker.store.data := by
      rw [same.store]
      rfl
    have writes₁ : s₁.worker.pendingWrites = s.worker.pendingWrites := same.pendingWrites
    obtain ⟨-, reads, step⟩ := acceptChunk_step found₁ due accepted
    refine ⟨reads.trans same.pendingReads, ?_⟩
    cases step with
    | unknown none =>
        rw [found₁] at none
        cases none
    | rejected write' found' bad data writes =>
        exact .rejected write' (by rw [findWrite, ← writes₁]; exact found') bad (data.trans data₁)
          (by rw [writes, discardWrite, discardWrite, writes₁])
    | failed write' found' due' data writes =>
        exact .failed write' (by rw [findWrite, ← writes₁]; exact found') due' (data.trans data₁)
          (by rw [writes, discardWrite, discardWrite, writes₁])
    | more write' found' due' part data writes =>
        exact .more write' (by rw [findWrite, ← writes₁]; exact found') due' part (data.trans data₁)
          (by rw [writes, putWrite, putWrite, writes₁])
    | finished status write' found' due' last data writes =>
        refine .finished _ write' (by rw [findWrite, ← writes₁]; exact found') due' last ?_
          (by rw [writes, discardWrite, discardWrite, writes₁])
        rw [data₁] at data
        exact data

/-! ## The other handlers -/

omit [Network ν] in
theorem readFile_step {req : ReadFileRequest} {answer : ClientStatus × UInt64 × UInt32}
    (h : s.readFile req = (answer, s')) :
    s'.network = s.network ∧ s'.worker.store = s.worker.store ∧ s'.worker.pendingWrites = s.worker.pendingWrites ∧
      (answer.1 = .success → s.worker.beingWritten req.path = false ∧
        ∃ m, MetadataStore.validFilename req.path = true ∧
          s.worker.store.data.lookup (MetadataStore.key req.path) = some m) := by
  unfold readFile at h
  split at h
  · cases h
    exact ⟨rfl, rfl, rfl, by simp⟩
  rename_i quiet
  split at h
  · cases h
    exact ⟨rfl, rfl, rfl, fun ok => absurd ok (getClientStatus_error _)⟩
  rename_i m found
  have here : s.worker.beingWritten req.path = false ∧ ∃ m, MetadataStore.validFilename req.path = true ∧
      s.worker.store.data.lookup (MetadataStore.key req.path) = some m :=
    ⟨by simpa using quiet, m, MetadataStore.getMetadata_ok found⟩
  dsimp only at h
  split at h
  · cases h
    exact ⟨rfl, rfl, rfl, by simp⟩
  split at h
  · cases h
    exact ⟨rfl, rfl, rfl, by simp⟩
  split at h
  · cases h
    exact ⟨rfl, rfl, rfl, by simp⟩
  split at h
  · cases h
    exact ⟨rfl, rfl, rfl, by simp⟩
  split at h
  · cases h
    exact ⟨rfl, rfl, rfl, fun _ => here⟩
  split at h
  · cases h
    exact ⟨rfl, rfl, rfl, by simp⟩
  · cases h
    exact ⟨rfl, rfl, rfl, fun _ => here⟩

theorem readChunk_step {req : ReadChunkRequest} {answer : ClientStatus × Bytes} (h : s.readChunk req = (answer, s')) :
    s'.worker.store = s.worker.store ∧ s'.worker.pendingWrites = s.worker.pendingWrites := by
  unfold readChunk at h
  split at h
  · cases h
    exact ⟨rfl, rfl⟩
  split at h
  · cases h
    exact ⟨rfl, rfl⟩
  dsimp only at h
  split at h <;> rename_i fetched <;> cases h <;> have same := fetchChunk_same fetched
  · exact ⟨same.store, same.pendingWrites⟩
  · dsimp only
    split
    · exact ⟨same.store, same.pendingWrites⟩
    · exact ⟨same.store, same.pendingWrites⟩

theorem removeMetadata_worker {path : Bytes} {result : Except MetadataStoreError Unit} {store : MetadataStore}
    {w : MetadataWorker} (removed : MetadataStore.removeMetadata path w.store = (result, store)) :
    store.data = w.store.data ∨
      getClientStatus result = .success ∧ store.data = w.store.data.erase (MetadataStore.key path) := by
  obtain ⟨failed, done⟩ := MetadataStore.removeMetadata_data removed
  cases result with
  | error e => exact Or.inl (failed e rfl)
  | ok _ => exact Or.inr ⟨rfl, (done rfl).2⟩

theorem removeObject_step {req : RemoveRequest} {m : FileMetadata} {status : ClientStatus}
    (h : s.removeObject req m = (status, s')) :
    s'.worker.pendingWrites = s.worker.pendingWrites ∧ s'.worker.pendingReads = s.worker.pendingReads ∧
      (s'.worker.store.data = s.worker.store.data ∨
        status = .success ∧ s'.worker.store.data = s.worker.store.data.erase (MetadataStore.key req.path)) := by
  unfold removeObject at h
  dsimp only [send] at h
  split at h
  · cases h
    simp only [awaitDelete_worker, and_self, true_or]
  · simp only [onStore, awaitDelete_worker, Prod.mk.injEq] at h
    obtain ⟨rfl, rfl⟩ := h
    exact ⟨rfl, rfl, removeMetadata_worker (w := s.worker) rfl⟩

/-- A `Remove` takes away the record of its path or none, and answers `Success` only while no
session has its path. -/
theorem remove_step {req : RemoveRequest} {status : ClientStatus} (h : s.remove req = (status, s')) :
    s'.worker.pendingWrites = s.worker.pendingWrites ∧ s'.worker.pendingReads = s.worker.pendingReads ∧
      (s'.worker.store.data = s.worker.store.data ∨
        status = .success ∧ s'.worker.store.data = s.worker.store.data.erase (MetadataStore.key req.path)) ∧
      (status = .success → s.worker.beingWritten req.path = false ∧ MetadataStore.validFilename req.path = true) := by
  unfold remove at h
  split at h
  · cases h
    exact ⟨rfl, rfl, Or.inl rfl, by simp⟩
  rename_i quiet
  replace quiet : s.worker.beingWritten req.path = false := by simpa using quiet
  split at h
  · rename_i missing
    rcases removed : MetadataStore.removeDirectory req.path s.worker.store with ⟨r, store⟩
    simp only [onStore, removed] at h
    cases h
    exact ⟨rfl, rfl, Or.inl (MetadataStore.removeDirectory_data removed),
      fun _ => ⟨quiet, (MetadataStore.getMetadata_notFound missing).1⟩⟩
  · cases h
    exact ⟨rfl, rfl, Or.inl rfl, fun ok => absurd ok (getClientStatus_error _)⟩
  rename_i m found
  have valid := (MetadataStore.getMetadata_ok found).1
  dsimp only at h
  split at h
  · cases h
    exact ⟨rfl, rfl, Or.inl rfl, by simp⟩
  split at h
  · rcases removed : MetadataStore.removeMetadata req.path s.worker.store with ⟨r, store⟩
    simp only [onStore, removed] at h
    cases h
    exact ⟨rfl, rfl, removeMetadata_worker removed, fun _ => ⟨quiet, valid⟩⟩
  split at h
  · obtain ⟨writes, reads, data⟩ := removeObject_step h
    exact ⟨writes, reads, data, fun _ => ⟨quiet, valid⟩⟩
  · cases h
    exact ⟨rfl, rfl, Or.inl rfl, by simp⟩

/-! ## All handlers -/

theorem handleCreateFile_step {req : CreateFileRequest} :
    TableStep env s.worker (s.handleCreateFile env req).worker (.createFile req) := by
  rcases added : MetadataStore.addMetadata env.now req.path
    { path := req.path, size := 0, objId := env.objectId, replicaLocations := ([], []) } s.worker.store with ⟨r, store⟩
  obtain ⟨failed, done⟩ := MetadataStore.addMetadata_data added
  simp only [handleCreateFile, onStore, added, respond, send]
  cases r with
  | error e => exact .still _ (failed e rfl) rfl
  | ok _ =>
      obtain ⟨valid, same | ⟨free, m, object, data⟩⟩ := done rfl
      · exact .still _ same rfl
      · exact .created req m valid free object.objId data rfl

theorem handleList_step {req : ListRequest} {s' : MetadataState ν} (h : s.handleList req = (.ok (), s')) :
    TableStep env s.worker s'.worker (.list req) := by
  rcases listed : MetadataStore.list req.path s.worker.store with ⟨r, store⟩
  have data := MetadataStore.list_data listed
  simp only [handleList, onStore, listed] at h
  split at h <;> cases h <;> exact .still _ data rfl

theorem handleStat_step {req : StatRequest} {s' : MetadataState ν} (h : s.handleStat req = (.ok (), s')) :
    TableStep env s.worker s'.worker (.stat req) := by
  rcases listed : MetadataStore.list req.path s.worker.store with ⟨r, store⟩
  have data := MetadataStore.list_data listed
  simp only [handleStat, onStore, listed] at h
  split at h
  · cases h
    exact .still _ rfl rfl
  · split at h <;> cases h <;> exact .still _ data rfl
  · cases h
    exact .still _ rfl rfl

/-- What a handler that returns does to records and write sessions. -/
theorem handle_step {event : ClientEvent} (h : s.handle env event = (.ok (), s')) :
    TableStep env (s.worker.withOutcomes env.outcomes) s'.worker event := by
  cases event with
  | createFile req =>
      cases h
      exact handleCreateFile_step (s := { s with worker := s.worker.withOutcomes env.outcomes })
  | writeFile req =>
      rcases written : MetadataState.writeFile env req { s with worker := s.worker.withOutcomes env.outcomes }
        with ⟨status, s₁⟩
      simp only [handle, handleWriteFile, written, respond, send, Prod.mk.injEq, true_and] at h
      subst h
      exact .writeFile req status (writeFile_step written).2.2
  | writeChunk req =>
      rcases written : MetadataState.writeChunk env req { s with worker := s.worker.withOutcomes env.outcomes }
        with ⟨r, s₁⟩
      simp only [handle, handleWriteChunk, written] at h
      cases r with
      | error e => cases h
      | ok status =>
          cases h
          exact .writeChunk req status (writeChunk_step written).2
  | readFile req =>
      rcases read : MetadataState.readFile req { s with worker := s.worker.withOutcomes env.outcomes }
        with ⟨answer, s₁⟩
      simp only [handle, handleReadFile, read, respond, send, Prod.mk.injEq, true_and] at h
      subst h
      obtain ⟨-, store, writes, -⟩ := readFile_step read
      exact .still _ (congrArg MetadataStore.data store) writes
  | readChunk req =>
      rcases read : MetadataState.readChunk req { s with worker := s.worker.withOutcomes env.outcomes }
        with ⟨answer, s₁⟩
      simp only [handle, handleReadChunk, read, respond, send, Prod.mk.injEq, true_and] at h
      subst h
      obtain ⟨store, writes⟩ := readChunk_step read
      exact .still _ (congrArg MetadataStore.data store) writes
  | remove req =>
      rcases removed : MetadataState.remove req { s with worker := s.worker.withOutcomes env.outcomes }
        with ⟨status, s₁⟩
      simp only [handle, handleRemove, removed, respond, send, Prod.mk.injEq, true_and] at h
      subst h
      obtain ⟨writes, -, same | ⟨-, erased⟩, -⟩ := remove_step removed
      · exact .still _ same writes
      · exact .removed req erased writes
  | list req => exact handleList_step h
  | makeDir req =>
      cases h
      exact .still _ (MetadataStore.makeDirectory_data rfl) rfl
  | rename req =>
      cases h
      exact .renamed req rfl rfl
  | stat req => exact handleStat_step h

end MetadataState

end Dfs
