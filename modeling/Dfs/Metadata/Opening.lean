import Dfs.Metadata.Placement
import Dfs.Metadata.Tidy

/-!
# What a `WriteFile` opens

Where no file call fails and the storage nodes are there, a `WriteFile` is answered with `Success`,
whatever the path has held before, and the record of the path can be written again.
-/

namespace Dfs

open Lib

namespace MetadataStore

variable {s s' : MetadataStore} {d d' : Disk} {f : Bytes} {m : FileMetadata} {now : TimePoint}

/-! ## A record that has been written -/

theorem writeMetadataFile_temporary (h : writeMetadataFile f m d = (.ok (), d')) :
    d'.tree.kind (PosixPath.appendSuffix (physical f) tmpExtension) ≠ some .dir := by
  unfold writeMetadataFile at h
  split at h
  · cases h
  intro dir
  rcases replaceFile_moved h dir with before | ⟨same, -⟩
  · exact ((replaceFile_kind h).2 rfl).2 before
  · exact temporary_ne _ same

/-- A file that is there stands in no way. -/
theorem writable_of_file {t : FileTree} {p : FilePath} {b : Bytes} (file : t.content p = some b) (ne : p ≠ [])
    (temporary : t.kind (PosixPath.appendSuffix p tmpExtension) ≠ some .dir) : Writable t p where
  way q mem := by
    obtain ⟨below, rest⟩ := (List.mem_inits _ _).1 mem
    have whole : q ++ (below ++ [p.getLast ne]) = p := by
      rw [← List.append_assoc, rest, List.dropLast_append_getLast ne]
    have dir : t.kind q = some .dir := t.prefix_dir (v := .file b) (r := below ++ [p.getLast ne])
      (by rw [whole]; exact FileTree.content_eq_some.1 file) (by simp)
    rw [FileTree.content, dir]
    rfl
  file dir := by rw [FileTree.content, dir] at file; cases file
  temporary := temporary

/-- An update that succeeds can be followed by another one. -/
theorem updateMetadata_writable (h : updateMetadata now f m s = (.ok (), s')) : Writable s'.disk.tree (physical f) := by
  obtain ⟨m', -, -, file⟩ := updateMetadata_content h
  have valid := ((updateMetadata_data h).2 rfl).1
  refine writable_of_file file (physical_ne_nil valid) ?_
  unfold updateMetadata at h
  rw [if_neg (by simp [valid])] at h
  split at h
  · unfold addMetadata at h
    rw [if_neg (by simp [valid])] at h
    split at h
    · cases h
    split at h
    · cases h
    dsimp only at h
    split at h
    · cases h
    · rename_i wrote
      cases h
      exact writeMetadataFile_temporary wrote
  · dsimp only at h
    split at h
    · cases h
    · rename_i wrote
      cases h
      exact writeMetadataFile_temporary wrote

end MetadataStore

namespace MetadataWorker

open MetadataStore

/-! ## What the handler needs -/

/-- The replicas that the record of the path names, or none. -/
def placed (w : MetadataWorker) (path : Bytes) : NodeId × NodeId :=
  ((w.store.data.lookup (key path)).map (·.replicaLocations)).getD ([], [])

/-- The storage nodes for the chunks of the path are there: the replicas of its record, or else any two. -/
def Supplied (w : MetadataWorker) (path : Bytes) : Prop :=
  if w.placed path = ([], []) then ∃ lhs rhs, lhs ≠ rhs ∧ w.isAvailable lhs = true ∧ w.isAvailable rhs = true
  else w.isAvailable (w.placed path).1 = true ∧ w.isAvailable (w.placed path).2 = true

/-- No record or session has half of its replicas or one of them twice. -/
def Paired (replicas : NodeId × NodeId) : Prop :=
  replicas = ([], []) ∨ replicas.1 ≠ [] ∧ replicas.2 ≠ [] ∧ replicas.1 ≠ replicas.2

theorem Paired.whole {replicas : NodeId × NodeId} (paired : Paired replicas) :
    halfBound replicas = false ∧ doubled replicas = false := by
  rcases paired with rfl | ⟨first, second, apart⟩
  · decide
  · simp [halfBound, doubled, first, second, apart]

/-- Nothing keeps the request from opening a session, or from emptying the file. -/
structure Openable (w : MetadataWorker) (req : WriteFileRequest) : Prop where
  sized : chunksOf req.fileSize = req.chunkCount.toUInt64
  free : w.findWrite req.context = none
  valid : validFilename req.path = true
  writable : Writable w.store.disk.tree (physical req.path)
  served : req.chunkCount ≠ 0 → w.Supplied req.path
  clean : w.AllClean
  paired : w.All fun _ replicas => Paired replicas
  mirrored : MetadataState.Mirrored w
  still : w.store.disk.Healthy 0

end MetadataWorker

namespace MetadataState

open MetadataStore MetadataWorker

variable {ν : Type} {s s' : MetadataState ν} {env : Env} {req : WriteFileRequest} {m : FileMetadata}

/-- A session has been opened. -/
structure Opened (req : WriteFileRequest) (x : Bytes) (replicas : NodeId × NodeId) (s s' : MetadataState ν) : Prop where
  network : s'.network = s.network
  writes : s'.worker.pendingWrites = (s.worker.putWrite req.context (sessionOf req x replicas)).pendingWrites
  reads : s'.worker.pendingReads = s.worker.pendingReads
  writable : Writable s'.worker.store.disk.tree (physical req.path)
  apart : replicas.1 ≠ replicas.2
  available : s.worker.isAvailable replicas.1 = true ∧ s.worker.isAvailable replicas.2 = true

/-- The file is empty from now on. -/
structure Emptied (req : WriteFileRequest) (m : FileMetadata) (s s' : MetadataState ν) : Prop where
  network : s'.network = s.network
  writes : s'.worker.pendingWrites = s.worker.pendingWrites
  reads : s'.worker.pendingReads = s.worker.pendingReads
  record : s'.worker.store.data.lookup (key req.path) = some m
  size : m.size = 0
  named : m.objId ≠ []

/-- The record that the handler goes on with: that of the path, or a new one. -/
theorem Openable.start (openable : s.worker.Openable req) (env : Env) : ∃ m, s.writeFile env req = s.startWrite env req m ∧
    m.objId ≠ [] ∧ Paired m.replicaLocations ∧ m.replicaLocations = s.worker.placed req.path := by
  unfold writeFile
  rw [if_neg (fun bad => bad openable.sized), getMetadata, if_neg (by simp [openable.valid])]
  cases found : s.worker.store.data.lookup (key req.path) with
  | some m =>
      refine ⟨m, rfl, (openable.clean _ _ (.record _ m found)).named, openable.paired _ _ (.record _ m found), ?_⟩
      rw [placed, found]
      rfl
  | none =>
      refine ⟨_, rfl, (generated_clean_unbound env).named, .inl rfl, ?_⟩
      rw [placed, found]
      rfl

theorem writeFile_starts (openable : s.worker.Openable req) (chunks : req.chunkCount ≠ 0) (env : Env) :
    ∃ s' x replicas, s.writeFile env req = (.success, s') ∧ Opened req x replicas s s' := by
  obtain ⟨m, started, named, paired, same⟩ := Openable.start openable env
  have served := openable.served chunks
  rw [started]
  unfold Supplied at served
  rw [← same] at served
  split at served
  · rename_i unbound
    obtain ⟨lhs, rhs, apart, left, right⟩ := served
    obtain ⟨pair, selected⟩ : ∃ pair, s.worker.selectReplicas = some pair :=
      Option.ne_none_iff_exists'.1 fun none => apart (selectReplicas_none.1 none lhs rhs left right)
    obtain ⟨store, updated⟩ := updateMetadata_healthy (m := { m with replicaLocations := pair }) env.now openable.mirrored
      openable.valid openable.still (by decide) openable.writable
    obtain ⟨apart, available⟩ := selectReplicas_spec selected
    exact ⟨_, _, pair, (startWrite_selected named unbound chunks selected updated).trans (openWrite_free openable.free), rfl, rfl,
      rfl, updateMetadata_writable updated, apart, available⟩
  · rename_i bound
    obtain ⟨first, second, apart⟩ := paired.resolve_left bound
    refine ⟨{ s with worker := s.worker.putWrite req.context (sessionOf req m.objId m.replicaLocations) }, m.objId,
      m.replicaLocations, ?_, rfl, rfl, rfl, openable.writable, apart, served⟩
    rw [startWrite, if_neg named, if_neg (by simp [paired.whole.1]), if_neg (by simp [paired.whole.2]), if_neg chunks,
      if_pos (by simpa using first), if_pos (by rw [served.1, served.2]; rfl), openWrite_free openable.free]

theorem writeFile_empties (openable : s.worker.Openable req) (empty : req.chunkCount = 0) (env : Env) :
    ∃ s' m, s.writeFile env req = (.success, s') ∧ Emptied req m s s' := by
  obtain ⟨m, started, named, paired, -⟩ := Openable.start openable env
  obtain ⟨store, updated⟩ := updateMetadata_healthy (m := { m with size := 0 }) env.now openable.mirrored openable.valid
    openable.still (by decide) openable.writable
  obtain ⟨-, m', same, data⟩ := (updateMetadata_data updated).2 rfl
  refine ⟨{ s with worker := { s.worker with store } }, m', ?_, rfl, rfl, rfl, ?_, same.size, ?_⟩
  · rw [started, startWrite, if_neg named, if_neg (by simp [paired.whole.1]), if_neg (by simp [paired.whole.2]), if_pos empty,
      onStore, updated]
  · rw [data, Assoc.lookup_insert_ite, if_pos rfl]
  · rw [same.objId]
    exact named

end MetadataState

end Dfs
