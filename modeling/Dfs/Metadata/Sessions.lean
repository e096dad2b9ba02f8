import Dfs.Metadata.WorkerSteps

/-!
# The session tables

Every request changes at most the session of its own client and request id. The sizes in a
session agree, so the chunk arithmetic of the handlers stays within its bounds.
-/

namespace Dfs

open Lib

/-- What a session's sizes, counters and replicas have to do with each other. -/
structure SessionSound (fileSize : UInt64) (chunkCount nextChunk : UInt32) (replicas : NodeId × NodeId) : Prop where
  next : nextChunk < chunkCount
  count : chunksOf fileSize = chunkCount.toUInt64
  bound : replicas.1 ≠ [] ∧ replicas.2 ≠ [] ∧ replicas.1 ≠ replicas.2

def PendingWrite.Sound (write : PendingWrite) : Prop :=
  SessionSound write.fileSize write.chunkCount write.nextChunk write.replicas

def PendingRead.Sound (read : PendingRead) : Prop :=
  SessionSound read.fileSize read.chunkCount read.nextChunk read.replicas

/-- The arithmetic of the chunk handlers for chunk `k` is that of the natural numbers. -/
structure ChunkExact (fileSize : UInt64) (k : UInt32) : Prop where
  offset : (k.toUInt64 * chunkSize64).toNat = k.toNat * chunkSize
  within : k.toNat * chunkSize < fileSize.toNat
  expected : (expectedSize fileSize k).toNat = min chunkSize (fileSize.toNat - k.toNat * chunkSize)
  positive : 1 ≤ (expectedSize fileSize k).toNat
  small : (expectedSize fileSize k).toNat ≤ chunkSize
  next : (k + 1).toNat = k.toNat + 1

/-- `chunksOf` is the division rounded up. -/
theorem chunksOf_toNat (size : UInt64) : (chunksOf size).toNat = (size.toNat + (chunkSize - 1)) / chunkSize := by
  have small := size.toNat_lt
  have size64 : chunkSize64.toNat = chunkSize := rfl
  have rest : size % chunkSize64 = 0 ↔ size.toNat % chunkSize = 0 := by
    rw [← UInt64.toNat_inj, UInt64.toNat_mod, size64]
    rfl
  unfold chunksOf
  rw [UInt64.toNat_add, UInt64.toNat_div, size64]
  simp only [ne_eq, rest, ite_not, chunkSize] at *
  split
  · simp only [UInt64.toNat_zero]
    omega
  · simp only [UInt64.toNat_one]
    omega

theorem chunkCount_toNat {fileSize : UInt64} {chunkCount : UInt32} (sized : chunksOf fileSize = chunkCount.toUInt64) :
    chunkCount.toNat = (fileSize.toNat + (chunkSize - 1)) / chunkSize := by
  rw [← chunksOf_toNat, sized, UInt32.toNat_toUInt64]

theorem SessionSound.chunkCount_toNat {fileSize : UInt64} {chunkCount nextChunk : UInt32}
    {replicas : NodeId × NodeId} (sound : SessionSound fileSize chunkCount nextChunk replicas) :
    chunkCount.toNat = (fileSize.toNat + (chunkSize - 1)) / chunkSize :=
  Dfs.chunkCount_toNat sound.count

/-- The arithmetic of the handlers is that of the natural numbers below the number of chunks. -/
theorem chunkExact_of_below {fileSize : UInt64} {chunkCount nextChunk : UInt32} (sized : chunksOf fileSize = chunkCount.toUInt64)
    (next : nextChunk < chunkCount) : ChunkExact fileSize nextChunk := by
  have below := UInt32.lt_iff_toNat_lt.1 next
  have count := chunkCount_toNat sized
  have small := chunkCount.toNat_lt
  have bounded := fileSize.toNat_lt
  have offset : (nextChunk.toUInt64 * chunkSize64).toNat = nextChunk.toNat * chunkSize := by
    have product : chunkSize64.toNat = chunkSize := rfl
    rw [UInt64.toNat_mul, UInt32.toNat_toUInt64, product, Nat.mod_eq_of_lt]
    simp only [chunkSize]
    omega
  have within : nextChunk.toNat * chunkSize < fileSize.toNat := by
    simp only [chunkSize] at count ⊢
    omega
  have rest : (fileSize - nextChunk.toUInt64 * chunkSize64).toNat = fileSize.toNat - nextChunk.toNat * chunkSize := by
    rw [UInt64.toNat_sub_of_le _ _ (UInt64.le_iff_toNat_le.2 (by rw [offset]; exact Nat.le_of_lt within)), offset]
  have expected : (expectedSize fileSize nextChunk).toNat = min chunkSize (fileSize.toNat - nextChunk.toNat * chunkSize) := by
    have size64 : chunkSize64.toNat = chunkSize := rfl
    rw [← rest, ← size64]
    change (if chunkSize64 ≤ fileSize - nextChunk.toUInt64 * chunkSize64 then _ else _ : UInt64).toNat = _
    split
    · rename_i le
      rw [Nat.min_eq_left (UInt64.le_iff_toNat_le.1 le)]
    · rename_i gt
      rw [Nat.min_eq_right (Nat.le_of_lt (UInt64.lt_iff_toNat_lt.1 (UInt64.not_le.1 gt)))]
  refine ⟨offset, within, expected, ?_, ?_, ?_⟩
  · rw [expected]
    have positive : 1 ≤ chunkSize := by decide
    omega
  · rw [expected]
    exact Nat.min_le_left _ _
  · rw [UInt32.toNat_add, UInt32.toNat_one, Nat.mod_eq_of_lt (by omega)]

theorem SessionSound.exact {fileSize : UInt64} {chunkCount nextChunk : UInt32} {replicas : NodeId × NodeId}
    (sound : SessionSound fileSize chunkCount nextChunk replicas) : ChunkExact fileSize nextChunk :=
  chunkExact_of_below sound.count sound.next

/-- The client and the id of a request. -/
def ClientEvent.context : ClientEvent → RequestContext
  | createFile req => req.context
  | readFile req => req.context
  | readChunk req => req.context
  | writeFile req => req.context
  | writeChunk req => req.context
  | remove req => req.context
  | list req => req.context
  | makeDir req => req.context
  | rename req => req.context
  | stat req => req.context

namespace MetadataWorker

theorem selectReplicas_spec {w : MetadataWorker} {replicas : NodeId × NodeId} (h : w.selectReplicas = some replicas) :
    replicas.1 ≠ replicas.2 ∧ w.isAvailable replicas.1 = true ∧ w.isAvailable replicas.2 = true := by
  have nodup : w.candidates.Nodup := by
    rw [candidates, (List.perm_insertionSort _ _).nodup_iff]
    exact w.storageNodes.keys_nodup.filter _
  have available : ∀ node ∈ w.candidates, w.isAvailable node = true := fun node mem => by
    rw [candidates, List.mem_insertionSort, List.mem_filter] at mem
    exact mem.2
  unfold selectReplicas at h
  split at h
  · rename_i first second rest selected
    cases h
    rw [selected] at nodup available
    simp only [List.nodup_cons, List.mem_cons, not_or] at nodup
    exact ⟨nodup.1.1, available first (by simp), available second (by simp)⟩
  · cases h

/-- Object and replicas of a read session come from a record or from the session before it. -/
def ReadOrigin (w : MetadataWorker) (read : PendingRead) : Prop :=
  (∃ k m, w.store.data.lookup k = some m ∧ read.objectId = m.objId ∧ read.replicas = m.replicaLocations) ∨
    ∃ context read₀, w.findRead context = some read₀ ∧ read.objectId = read₀.objectId ∧ read.replicas = read₀.replicas

structure SessionsSound (w : MetadataWorker) : Prop where
  writes : ∀ client id write, Nested.find w.pendingWrites client id = some write → write.Sound
  reads : ∀ client id read, Nested.find w.pendingReads client id = some read → read.Sound
  writesFilled : Nested.NoEmpty w.pendingWrites
  readsFilled : Nested.NoEmpty w.pendingReads

/-- The storage nodes have ids. -/
def Named (w : MetadataWorker) : Prop := ∀ node, w.isAvailable node = true → node ≠ []

variable {w w' : MetadataWorker} {env : Env}

theorem WriteFileStep.writes_change {req : WriteFileRequest} {status : ClientStatus}
    (step : WriteFileStep env req w w' status) :
    Nested.Change (fun write => w.Named → write.Sound) req.context.sender.id req.context.requestId w.pendingWrites
      w'.pendingWrites := by
  have first : req.chunkCount ≠ 0 → (0 : UInt32) < req.chunkCount := fun some =>
    UInt32.lt_iff_toNat_lt.2 (Nat.pos_of_ne_zero fun none => some (UInt32.toNat_inj.1 none))
  cases step with
  | refused _ bad data writes =>
      rw [writes]
      exact .same
  | emptied m m' target count objId replicas size data writes =>
      rw [writes]
      exact .same
  | opened m target count sized bound data free writes =>
      rw [writes]
      exact .replaced _ fun _ => ⟨first count, sized, bound⟩
  | bound _ m m' target count sized unbound selected objId size data writes =>
      obtain ⟨apart, available₁, available₂⟩ := selectReplicas_spec selected
      rcases writes with ⟨-, writes⟩ | ⟨-, -, writes⟩
      · rw [writes]
        exact .same
      · rw [writes]
        exact .replaced _ fun named => ⟨first count, sized, named _ available₁, named _ available₂, apart⟩

theorem WriteChunkStep.writes_change {req : WriteChunkRequest} {status : ClientStatus}
    (step : WriteChunkStep req w w' status) :
    Nested.Change (fun write => w.SessionsSound → write.Sound) req.context.sender.id req.context.requestId
      w.pendingWrites w'.pendingWrites := by
  cases step with
  | unknown none same =>
      rw [same.pendingWrites]
      exact .same
  | rejected write found bad data writes =>
      rw [writes]
      exact .discarded
  | failed write found due data writes =>
      rw [writes]
      exact .discarded
  | finished _ write found due last data writes =>
      rw [writes]
      exact .discarded
  | more write found due part data writes =>
      rw [writes]
      refine .replaced _ fun sound => ?_
      have before := sound.writes _ _ write found
      have below := UInt32.lt_iff_toNat_lt.1 before.next
      have apart : (write.nextChunk + 1).toNat ≠ write.chunkCount.toNat := fun same => part (UInt32.toNat_inj.1 same)
      rw [before.exact.next] at apart
      have next : write.nextChunk + 1 < write.chunkCount := by
        rw [UInt32.lt_iff_toNat_lt, before.exact.next]
        omega
      exact ⟨next, before.count, before.bound⟩

/-- A request changes no write session but its own. -/
theorem TableStep.writes_change {event : ClientEvent} (step : TableStep env w w' event) :
    Nested.Change (fun write => w.Named → w.SessionsSound → write.Sound) event.context.sender.id
      event.context.requestId w.pendingWrites w'.pendingWrites := by
  cases step with
  | writeFile req status step => exact step.writes_change.mono fun _ holds named _ => holds named
  | writeChunk req status step => exact step.writes_change.mono fun _ holds _ => holds
  | still _ data writes =>
      rw [writes]
      exact .same
  | created req m valid free objId data writes =>
      rw [writes]
      exact .same
  | removed req data writes =>
      rw [writes]
      exact .same
  | renamed req data writes =>
      rw [writes]
      exact .same

end MetadataWorker

namespace MetadataState

open MetadataWorker

variable {ν : Type} [Network ν] {s s' : MetadataState ν} {env : Env}

omit [Network ν] in
theorem readFile_reads {req : ReadFileRequest} {answer : ClientStatus × UInt64 × UInt32}
    (h : s.readFile req = (answer, s')) :
    Nested.Change (fun read => read.Sound ∧ s.worker.ReadOrigin read) req.context.sender.id req.context.requestId
      s.worker.pendingReads s'.worker.pendingReads := by
  unfold readFile at h
  split at h
  · cases h
    exact .same
  split at h
  · cases h
    exact .same
  rename_i m found
  dsimp only at h
  split at h
  · cases h
    exact .same
  split at h
  · cases h
    exact .same
  rename_i fits
  split at h
  · cases h
    exact .same
  rename_i bound
  split at h
  · cases h
    exact .same
  split at h
  · cases h
    exact .same
  rename_i chunks
  split at h
  · cases h
    exact .same
  · cases h
    have count : chunksOf m.size = (chunksOf m.size).toUInt32.toUInt64 := by
      rw [← UInt64.toNat_inj, UInt32.toNat_toUInt64, UInt64.toNat_toUInt32, Nat.mod_eq_of_lt (by omega)]
    have positive : (0 : UInt32) < (chunksOf m.size).toUInt32 := by
      refine UInt32.lt_iff_toNat_lt.2 (Nat.pos_of_ne_zero fun none => chunks ?_)
      have zero : (chunksOf m.size).toUInt32 = 0 := UInt32.toNat_inj.1 none
      rw [count, zero]
      rfl
    have filled : m.size ≠ 0 := fun empty => chunks (by rw [empty]; rfl)
    simp only [not_and, not_or] at bound
    exact .replaced _ ⟨⟨positive, count, bound filled⟩, Or.inl ⟨_, m, (MetadataStore.getMetadata_ok found).2, rfl, rfl⟩⟩

theorem readChunk_reads {req : ReadChunkRequest} {answer : ClientStatus × Bytes} (h : s.readChunk req = (answer, s')) :
    Nested.Change (fun read => (s.worker.SessionsSound → read.Sound) ∧ s.worker.ReadOrigin read) req.context.sender.id
      req.context.requestId s.worker.pendingReads s'.worker.pendingReads := by
  unfold readChunk at h
  split at h
  · cases h
    exact .same
  rename_i read found
  split at h
  · cases h
    exact .discarded
  dsimp only at h
  split at h
  · rename_i s₁ fetched
    cases h
    dsimp only [discardRead]
    rw [(fetchChunk_same fetched).pendingReads]
    exact .discarded
  · rename_i data s₁ fetched
    cases h
    dsimp only
    split
    · dsimp only [discardRead]
      rw [(fetchChunk_same fetched).pendingReads]
      exact .discarded
    · rename_i part
      dsimp only [putRead]
      rw [(fetchChunk_same fetched).pendingReads]
      refine .replaced _ ⟨fun sound => ?_, Or.inr ⟨_, read, found, rfl, rfl⟩⟩
      have before := sound.reads _ _ read found
      have below := UInt32.lt_iff_toNat_lt.1 before.next
      have apart : (read.nextChunk + 1).toNat ≠ read.chunkCount.toNat := fun same => part (UInt32.toNat_inj.1 same)
      rw [before.exact.next] at apart
      have next : read.nextChunk + 1 < read.chunkCount := by
        rw [UInt32.lt_iff_toNat_lt, before.exact.next]
        omega
      exact ⟨next, before.count, before.bound⟩

/-- A request changes no read session but its own. -/
theorem handle_reads {event : ClientEvent} (h : s.handle env event = (.ok (), s')) :
    Nested.Change (fun read => (s.worker.SessionsSound → read.Sound) ∧ s.worker.ReadOrigin read) event.context.sender.id
      event.context.requestId s.worker.pendingReads s'.worker.pendingReads := by
  cases event with
  | createFile req =>
      cases h
      exact .same
  | writeFile req =>
      rcases written : MetadataState.writeFile env req { s with worker := s.worker.withOutcomes env.outcomes }
        with ⟨status, s₁⟩
      simp only [handle, handleWriteFile, written, respond, send, Prod.mk.injEq, true_and] at h
      subst h
      have reads : s₁.worker.pendingReads = s.worker.pendingReads := (writeFile_step written).2.1
      dsimp only
      rw [reads]
      exact .same
  | writeChunk req =>
      rcases written : MetadataState.writeChunk env req { s with worker := s.worker.withOutcomes env.outcomes }
        with ⟨r, s₁⟩
      simp only [handle, handleWriteChunk, written] at h
      cases r with
      | error e => cases h
      | ok status =>
          cases h
          have reads : s₁.worker.pendingReads = s.worker.pendingReads := (writeChunk_step written).1
          dsimp only [respond, send]
          rw [reads]
          exact .same
  | readFile req =>
      rcases read : MetadataState.readFile req { s with worker := s.worker.withOutcomes env.outcomes }
        with ⟨answer, s₁⟩
      simp only [handle, handleReadFile, read, respond, send, Prod.mk.injEq, true_and] at h
      subst h
      exact (readFile_reads read).mono fun _ both => ⟨fun _ => both.1, both.2⟩
  | readChunk req =>
      rcases read : MetadataState.readChunk req { s with worker := s.worker.withOutcomes env.outcomes }
        with ⟨answer, s₁⟩
      simp only [handle, handleReadChunk, read, respond, send, Prod.mk.injEq, true_and] at h
      subst h
      exact (readChunk_reads read).mono fun _ both =>
        ⟨fun sound => both.1 ⟨sound.writes, sound.reads, sound.writesFilled, sound.readsFilled⟩, both.2⟩
  | remove req =>
      rcases removed : MetadataState.remove req { s with worker := s.worker.withOutcomes env.outcomes }
        with ⟨status, s₁⟩
      simp only [handle, handleRemove, removed, respond, send, Prod.mk.injEq, true_and] at h
      subst h
      have reads : s₁.worker.pendingReads = s.worker.pendingReads := (remove_step removed).2.1
      dsimp only
      rw [reads]
      exact .same
  | list req =>
      simp only [handle, handleList, onStore] at h
      split at h <;> cases h <;> exact .same
  | makeDir req =>
      cases h
      exact .same
  | rename req =>
      cases h
      exact .same
  | stat req =>
      simp only [handle, handleStat, onStore] at h
      split at h
      · cases h
        exact .same
      · split at h <;> cases h <;> exact .same
      · cases h
        exact .same

/-- A request changes no session but its own. -/
theorem handle_others {event : ClientEvent} (h : s.handle env event = (.ok (), s')) (context : RequestContext)
    (other : ¬ (context.sender.id = event.context.sender.id ∧ context.requestId = event.context.requestId)) :
    s'.worker.findWrite context = s.worker.findWrite context ∧ s'.worker.findRead context = s.worker.findRead context :=
  ⟨(handle_step h).writes_change.find_other other, (handle_reads h).find_other other⟩

/-- What a handler that returns keeps of the session tables. -/
theorem handle_sessions {event : ClientEvent} (sound : s.worker.SessionsSound) (named : s.worker.Named)
    (h : s.handle env event = (.ok (), s')) :
    s'.worker.SessionsSound ∧ ∀ context : RequestContext,
      ¬ (context.sender.id = event.context.sender.id ∧ context.requestId = event.context.requestId) →
        s'.worker.findWrite context = s.worker.findWrite context ∧
          s'.worker.findRead context = s.worker.findRead context := by
  have writes := (handle_step h).writes_change.mono fun _ holds =>
    holds named ⟨sound.writes, sound.reads, sound.writesFilled, sound.readsFilled⟩
  have reads := (handle_reads h).mono fun _ both => both.1 sound
  exact ⟨⟨fun client id write found => writes.all sound.writes found, fun client id read found =>
    reads.all sound.reads found, writes.noEmpty sound.writesFilled, reads.noEmpty sound.readsFilled⟩, handle_others h⟩

end MetadataState

end Dfs
