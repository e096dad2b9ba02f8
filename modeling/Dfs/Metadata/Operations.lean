import Dfs.Metadata.Recovery
import Dfs.Metadata.WorkerSteps

/-!
# The store operation of a request

A handler runs at most one operation of the store, and nothing else of it touches the store.
-/

namespace Dfs

open Lib

namespace MetadataWorker

/-- The operations that the handler of an event may run. -/
inductive Performs (env : Env) (w : MetadataWorker) : ClientEvent → StoreOp → Prop where
  | createFile (req : CreateFileRequest) :
      Performs env w (.createFile req) (.add env.now req.path
        { path := req.path, size := 0, objId := env.objectId, replicaLocations := ([], []) })
  | emptied (req : WriteFileRequest) (m : FileMetadata) (target : w.target env req.path m) :
      Performs env w (.writeFile req) (.update env.now req.path { m with size := 0 })
  | bound (req : WriteFileRequest) (m : FileMetadata) (replicas : NodeId × NodeId) (target : w.target env req.path m)
      (selected : w.selectReplicas = some replicas) :
      Performs env w (.writeFile req) (.update env.now req.path { m with replicaLocations := replicas })
  | finished (req : WriteChunkRequest) (write : PendingWrite) (found : w.findWrite req.context = some write) :
      Performs env w (.writeChunk req) (.update env.now write.path
        { path := write.path, size := write.fileSize, objId := write.objectId, replicaLocations := write.replicas })
  | removeDirectory (req : RemoveRequest) : Performs env w (.remove req) (.removeDirectory req.path)
  | remove (req : RemoveRequest) : Performs env w (.remove req) (.remove req.path)
  | list (req : ListRequest) : Performs env w (.list req) (.list req.path)
  | makeDir (req : MakeDirRequest) : Performs env w (.makeDir req) (.makeDirectory req.path)
  | rename (req : RenameRequest) : Performs env w (.rename req) (.rename req.oldPath req.newPath)
  | stat (req : StatRequest) (missing : w.store.getMetadata req.path = .error .notFound) :
      Performs env w (.stat req) (.list req.path)

/-- What becomes of the store in the handler of `event`. -/
def Operates (env : Env) (event : ClientEvent) (w w' : MetadataWorker) : Prop :=
  w'.store = w.store ∨ ∃ o, Performs env w event o ∧ w'.store = o.apply w.store

end MetadataWorker

namespace MetadataState

open MetadataWorker MetadataStore

variable {ν : Type} [Network ν] {s s' : MetadataState ν} {env : Env}

omit [Network ν] in
theorem onStore_store {α : Type} {f : MetadataStore → α × MetadataStore} {r : α} (h : s.onStore f = (r, s')) :
    s'.worker.store = (f s.worker.store).2 := by
  cases h
  rfl

omit [Network ν] in
theorem openWrite_store {req : WriteFileRequest} {objectId : Bytes} {replicas : NodeId × NodeId} {status : ClientStatus}
    (h : s.openWrite req objectId replicas = (status, s')) : s'.worker.store = s.worker.store := by
  unfold openWrite at h
  split at h <;> cases h <;> rfl

omit [Network ν] in
theorem startWrite_operates {req : WriteFileRequest} {m : FileMetadata} {status : ClientStatus}
    (target : s.worker.target env req.path m) (h : s.startWrite env req m = (status, s')) :
    Operates env (.writeFile req) s.worker s'.worker := by
  unfold startWrite at h
  dsimp only at h
  split at h
  · cases h
    exact Or.inl rfl
  split at h
  · cases h
    exact Or.inl rfl
  split at h
  · cases h
    exact Or.inl rfl
  split at h
  · split at h <;> rename_i updated <;> cases h <;> exact Or.inr ⟨_, .emptied req m target, onStore_store updated⟩
  split at h
  · split at h
    · exact Or.inl (openWrite_store h)
    · cases h
      exact Or.inl rfl
  split at h
  · cases h
    exact Or.inl rfl
  rename_i replicas selected
  split at h <;> rename_i updated
  · cases h
    exact Or.inr ⟨_, .bound req m replicas target selected, onStore_store updated⟩
  · exact Or.inr ⟨_, .bound req m replicas target selected, (openWrite_store h).trans (onStore_store updated)⟩

omit [Network ν] in
theorem writeFile_operates {req : WriteFileRequest} {status : ClientStatus} (h : s.writeFile env req = (status, s')) :
    Operates env (.writeFile req) s.worker s'.worker := by
  unfold writeFile at h
  split at h
  · cases h
    exact Or.inl rfl
  split at h
  · rename_i m found
    exact startWrite_operates (target_found found) h
  · rename_i missing
    exact startWrite_operates (target_new missing) h
  · cases h
    exact Or.inl rfl

theorem writeChunk_operates {req : WriteChunkRequest} {r : Except Exn ClientStatus} (h : s.writeChunk env req = (r, s')) :
    Operates env (.writeChunk req) s.worker s'.worker := by
  unfold writeChunk at h
  split at h
  · cases h
    exact Or.inl rfl
  rename_i write found
  split at h
  · cases h
    exact Or.inl rfl
  split at h
  · cases h
    exact Or.inl rfl
  dsimp only at h
  split at h <;> rename_i waited
  · cases h
    exact Or.inl (awaitPuts_same waited).store
  · cases h
    exact Or.inl (awaitPuts_same waited).store
  · rename_i s₁
    have store : s₁.worker.store = s.worker.store := (awaitPuts_same waited).store
    cases h
    unfold acceptChunk
    dsimp only
    split
    · exact Or.inl store
    · refine Or.inr ⟨_, .finished req write found, ?_⟩
      rw [← store]
      rfl

theorem remove_operates {req : RemoveRequest} {status : ClientStatus} (h : s.remove req = (status, s')) :
    Operates env (.remove req) s.worker s'.worker := by
  unfold remove at h
  split at h
  · cases h
    exact Or.inl rfl
  split at h
  · cases h
    exact Or.inr ⟨_, .removeDirectory req, rfl⟩
  · cases h
    exact Or.inl rfl
  dsimp only at h
  split at h
  · cases h
    exact Or.inl rfl
  split at h
  · cases h
    exact Or.inr ⟨_, .remove req, rfl⟩
  split at h
  · unfold removeObject at h
    dsimp only [send] at h
    split at h
    · cases h
      exact Or.inl (by simp only [awaitDelete_worker])
    · cases h
      exact Or.inr ⟨_, .remove req, by simp only [onStore, awaitDelete_worker]; rfl⟩
  · cases h
    exact Or.inl rfl

/-- The state in which a handler starts. -/
def entered (s : MetadataState ν) (env : Env) : MetadataState ν :=
  { s with worker := s.worker.withOutcomes env.outcomes }

/-- Whether or not the handler returns. -/
theorem handle_operates (s : MetadataState ν) (env : Env) (event : ClientEvent) :
    Operates env event (s.entered env).worker (s.handle env event).2.worker := by
  cases event with
  | createFile req => exact Or.inr ⟨_, .createFile req, rfl⟩
  | writeFile req =>
      rcases handled : MetadataState.writeFile env req { s with worker := s.worker.withOutcomes env.outcomes }
        with ⟨status, s₁⟩
      simp only [handle, handleWriteFile, handled, respond, send]
      exact writeFile_operates handled
  | writeChunk req =>
      rcases handled : MetadataState.writeChunk env req { s with worker := s.worker.withOutcomes env.outcomes }
        with ⟨r, s₁⟩
      have operates := writeChunk_operates handled
      simp only [handle, handleWriteChunk, handled]
      cases r <;> exact operates
  | readFile req =>
      rcases handled : MetadataState.readFile req { s with worker := s.worker.withOutcomes env.outcomes }
        with ⟨answer, s₁⟩
      simp only [handle, handleReadFile, handled, respond, send]
      exact Or.inl (readFile_step handled).2.1
  | readChunk req =>
      rcases handled : MetadataState.readChunk req { s with worker := s.worker.withOutcomes env.outcomes }
        with ⟨answer, s₁⟩
      simp only [handle, handleReadChunk, handled, respond, send]
      exact Or.inl (readChunk_step handled).1
  | remove req =>
      rcases handled : MetadataState.remove req { s with worker := s.worker.withOutcomes env.outcomes }
        with ⟨status, s₁⟩
      simp only [handle, handleRemove, handled, respond, send]
      exact remove_operates handled
  | list req =>
      simp only [handle, handleList, onStore]
      split <;> exact Or.inr ⟨_, .list req, rfl⟩
  | makeDir req => exact Or.inr ⟨_, .makeDir req, rfl⟩
  | rename req => exact Or.inr ⟨_, .rename req, rfl⟩
  | stat req =>
      simp only [handle, handleStat, onStore]
      split
      · exact Or.inl rfl
      · rename_i missing
        split <;> exact Or.inr ⟨_, .stat req missing, rfl⟩
      · exact Or.inl rfl

end MetadataState

end Dfs
