import Dfs.Metadata.WorkerDurable
import Dfs.Metadata.Writing

/-!
# What a client is told

A handler that returns has sent one frame to its client last, and the status in it says whether
the records may have changed. Only a `WriteFile` can change a record and be refused.
-/

namespace Dfs

open Lib

namespace ClientEvent

def job : ClientEvent → ClientJob
  | createFile _ => .createFile
  | readFile _ => .readFile
  | readChunk _ => .readChunk
  | writeFile _ => .writeFile
  | writeChunk _ => .writeChunk
  | remove _ => .remove
  | list _ => .list
  | makeDir _ => .mkdir
  | rename _ => .rename
  | stat _ => .stat

/-- The chunk that a request is about. -/
def chunkIndex : ClientEvent → Option UInt32
  | readChunk req => some req.chunkIndex
  | writeChunk req => some req.chunkIndex
  | _ => none

end ClientEvent

/-- `frame` is a response to the job, the request and, where there is one, the chunk of `event`, and
says `status`. -/
def Responds (event : ClientEvent) (status : ClientStatus) (frame : Frame) : Prop :=
  ∃ rest, frame = Rpc.makeFrame event.context.requestId event.job .response
    ((event.chunkIndex.map write).getD [] ++ (write status ++ rest))

theorem write_status_inj {status status' : ClientStatus} {rest rest' : Bytes}
    (same : write status ++ rest = write status' ++ rest') : status = status' := by
  obtain ⟨r, read, -⟩ := BinaryReader.read_start status rest trivial
  obtain ⟨r', read', -⟩ := BinaryReader.read_start status' rest' trivial
  rw [same, read'] at read
  exact ((Prod.mk.inj (Except.ok.inj read)).1).symm

/-- A frame says one status only. -/
theorem Responds.status_eq {event : ClientEvent} {status status' : ClientStatus} {frame : Frame}
    (answers : Responds event status frame) (answers' : Responds event status' frame) : status = status' := by
  obtain ⟨rest, rfl⟩ := answers
  obtain ⟨rest', same⟩ := answers'
  have buffers := congrArg Frame.buffer same
  simp only [Rpc.makeFrame, List.append_cancel_left_eq] at buffers
  exact write_status_inj buffers

namespace MetadataWorker

open MetadataStore

/-- The store lets this `WriteFile` bind the record of its path before the session it asks for
turns out to exist already. -/
structure Overtakes (w : MetadataWorker) (req : WriteFileRequest) : Prop where
  chunks : req.chunkCount ≠ 0
  sized : chunksOf req.fileSize = req.chunkCount.toUInt64
  valid : validFilename req.path = true
  unbound : ∀ m, w.store.data.lookup (key req.path) = some m → m.replicaLocations = ([], [])
  nodes : w.selectReplicas.isSome = true
  pending : (w.findWrite req.context).isSome = true
  writable : Writable w.store.disk.tree (physical req.path)

def Overtaken (w : MetadataWorker) : ClientEvent → Prop
  | .writeFile req => w.Overtakes req
  | _ => False

/-- What the file calls will do is no part of it. -/
theorem overtaken_withOutcomes {w : MetadataWorker} {outcomes : List Outcome} (event : ClientEvent) :
    (w.withOutcomes outcomes).Overtaken event ↔ w.Overtaken event := by
  cases event with
  | writeFile req =>
      exact ⟨fun h => ⟨h.chunks, h.sized, h.valid, h.unbound, h.nodes, h.pending, h.writable⟩,
        fun h => ⟨h.chunks, h.sized, h.valid, h.unbound, h.nodes, h.pending, h.writable⟩⟩
  | _ => exact Iff.rfl

end MetadataWorker

namespace MetadataState

open MetadataWorker MetadataStore

variable {ν : Type} [Network ν] {s s' : MetadataState ν} {env : Env}

/-! ## `WriteFile` -/

omit [Network ν] in
theorem openWrite_refused {req : WriteFileRequest} {objectId : Bytes} {replicas : NodeId × NodeId} {status : ClientStatus}
    (h : s.openWrite req objectId replicas = (status, s')) (bad : status ≠ .success) :
    s' = s ∧ (s.worker.findWrite req.context).isSome = true := by
  unfold openWrite at h
  split at h
  · rename_i found
    cases h
    exact ⟨rfl, by rw [found]; rfl⟩
  · cases h
    exact absurd rfl bad

omit [Network ν] in
theorem startWrite_refused {req : WriteFileRequest} {m : FileMetadata} {status : ClientStatus}
    (target : s.worker.target env req.path m) (sized : chunksOf req.fileSize = req.chunkCount.toUInt64)
    (h : s.startWrite env req m = (status, s')) (bad : status ≠ .success) :
    s'.worker.store.data = s.worker.store.data ∨ s.worker.Overtakes req := by
  unfold startWrite at h
  dsimp only at h
  split at h
  · cases h
    exact Or.inl rfl
  split at h
  · cases h
    exact Or.inl rfl
  rename_i whole
  split at h
  · cases h
    exact Or.inl rfl
  split at h
  · rcases updated : updateMetadata env.now req.path { m with size := 0 } s.worker.store with ⟨r, store⟩
    simp only [onStore, updated] at h
    cases r with
    | error e =>
        cases h
        exact Or.inl ((updateMetadata_data updated).1 e rfl)
    | ok _ =>
        cases h
        exact absurd rfl bad
  rename_i chunks
  split at h
  · split at h
    · rw [(openWrite_refused h bad).1]
      exact Or.inl rfl
    · cases h
      exact Or.inl rfl
  rename_i unbound
  split at h
  · cases h
    exact Or.inl rfl
  rename_i replicas selected
  rcases updated : updateMetadata env.now req.path { m with replicaLocations := replicas } s.worker.store with ⟨r, store⟩
  simp only [onStore, updated] at h
  cases r with
  | error e =>
      cases h
      exact Or.inl ((updateMetadata_data updated).1 e rfl)
  | ok _ =>
      obtain ⟨valid, record⟩ := target
      refine Or.inr ⟨chunks, sized, valid, fun m' found => ?_, by rw [selected]; rfl, (openWrite_refused h bad).2,
        updateMetadata_ok updated⟩
      rcases record with found' | ⟨missing, -⟩
      · cases Option.some.inj (found.symm.trans found')
        simp only [halfBound, bne_iff_ne, ne_eq, decide_eq_decide, not_not] at whole
        have first : m.replicaLocations.1 = [] := by simpa using unbound
        exact Prod.ext first (Classical.byContradiction fun second => whole.2 second first)
      · rw [missing] at found
        cases found

omit [Network ν] in
theorem writeFile_refused {req : WriteFileRequest} {status : ClientStatus} (h : s.writeFile env req = (status, s'))
    (bad : status ≠ .success) : s'.worker.store.data = s.worker.store.data ∨ s.worker.Overtakes req := by
  unfold writeFile at h
  split at h
  · cases h
    exact Or.inl rfl
  · rename_i sized
    replace sized := Classical.not_not.1 sized
    split at h
    · rename_i found
      exact startWrite_refused (target_found found) sized h bad
    · rename_i missing
      exact startWrite_refused (target_new missing) sized h bad
    · cases h
      exact Or.inl rfl

omit [Network ν] in
/-- A record without replicas gets the ones that are selected. -/
theorem startWrite_selected {req : WriteFileRequest} {m : FileMetadata} {replicas : NodeId × NodeId} {store : MetadataStore}
    (named : m.objId ≠ []) (unbound : m.replicaLocations = ([], [])) (chunks : req.chunkCount ≠ 0)
    (selected : s.worker.selectReplicas = some replicas)
    (updated : updateMetadata env.now req.path { m with replicaLocations := replicas } s.worker.store = (.ok (), store)) :
    s.startWrite env req m = openWrite req m.objId replicas { s with worker := { s.worker with store } } := by
  unfold startWrite
  dsimp only
  rw [if_neg named, unbound, if_neg (by decide), if_neg (by decide), if_neg chunks, if_neg (by decide), selected]
  dsimp only [onStore]
  rw [updated]

omit [Network ν] in
theorem startWrite_overtaken {req : WriteFileRequest} {m : FileMetadata} (overtakes : s.worker.Overtakes req)
    (named : m.objId ≠ []) (unbound : m.replicaLocations = ([], [])) (mirror : Mirrored s.worker)
    (still : s.worker.store.disk.Healthy 0) :
    ∃ s' m', s.startWrite env req m = (.serverError, s') ∧
      s'.worker.store.data = s.worker.store.data.insert (key req.path) m' ∧
      some m'.replicaLocations = s.worker.selectReplicas := by
  obtain ⟨replicas, selected⟩ := Option.isSome_iff_exists.1 overtakes.nodes
  obtain ⟨write, pending⟩ := Option.isSome_iff_exists.1 overtakes.pending
  obtain ⟨store, updated⟩ := updateMetadata_healthy (m := { m with replicaLocations := replicas }) env.now mirror
    overtakes.valid still (by decide) overtakes.writable
  obtain ⟨-, m', same, data⟩ := (updateMetadata_data updated).2 rfl
  refine ⟨{ s with worker := { s.worker with store } }, m', ?_, data, by rw [selected, same.replicaLocations]⟩
  rw [startWrite_selected named unbound overtakes.chunks selected updated]
  dsimp only [openWrite]
  have pending' : findWrite { s.worker with store } req.context = some write := pending
  rw [pending']

omit [Network ν] in
/-- Where no file call fails, such a `WriteFile` binds the record and is refused. -/
theorem writeFile_overtaken (env : Env) {req : WriteFileRequest} (overtakes : s.worker.Overtakes req) (clean : s.worker.AllClean)
    (mirror : Mirrored s.worker) (still : s.worker.store.disk.Healthy 0) :
    ∃ s' m', s.writeFile env req = (.serverError, s') ∧
      s'.worker.store.data = s.worker.store.data.insert (key req.path) m' ∧
      some m'.replicaLocations = s.worker.selectReplicas := by
  unfold writeFile
  rw [if_neg (fun bad => bad overtakes.sized), getMetadata, if_neg (by simp [overtakes.valid])]
  cases found : s.worker.store.data.lookup (key req.path) with
  | some m =>
      exact startWrite_overtaken overtakes (clean _ _ (.record _ m found)).named (overtakes.unbound m found) mirror still
  | none => exact startWrite_overtaken overtakes (generated_clean_unbound env).named rfl mirror still

/-! ## All handlers -/

/-- What a handler that returns has computed: the status and the state in which it responds. -/
inductive Handled (env : Env) (s : MetadataState ν) : ClientEvent → ClientStatus → MetadataState ν → Prop where
  | createFile (req : CreateFileRequest) (r : Except MetadataStoreError Unit) (s₁ : MetadataState ν)
      (run : s.onStore (addMetadata env.now req.path
        { path := req.path, size := 0, objId := env.objectId, replicaLocations := ([], []) }) = (r, s₁)) :
      Handled env s (.createFile req) (getClientStatus r) s₁
  | writeFile (req : WriteFileRequest) (status : ClientStatus) (s₁ : MetadataState ν)
      (run : s.writeFile env req = (status, s₁)) : Handled env s (.writeFile req) status s₁
  | writeChunk (req : WriteChunkRequest) (status : ClientStatus) (s₁ : MetadataState ν)
      (run : s.writeChunk env req = (.ok status, s₁)) : Handled env s (.writeChunk req) status s₁
  | readFile (req : ReadFileRequest) (answer : ClientStatus × UInt64 × UInt32) (s₁ : MetadataState ν)
      (run : s.readFile req = (answer, s₁)) : Handled env s (.readFile req) answer.1 s₁
  | readChunk (req : ReadChunkRequest) (answer : ClientStatus × Bytes) (s₁ : MetadataState ν)
      (run : s.readChunk req = (answer, s₁)) : Handled env s (.readChunk req) answer.1 s₁
  | remove (req : RemoveRequest) (status : ClientStatus) (s₁ : MetadataState ν) (run : s.remove req = (status, s₁)) :
      Handled env s (.remove req) status s₁
  | list (req : ListRequest) (r : Except MetadataStoreError (List FileInfo)) (status : ClientStatus) (s₁ : MetadataState ν)
      (run : s.onStore (MetadataStore.list req.path) = (.ok r, s₁)) : Handled env s (.list req) status s₁
  | makeDir (req : MakeDirRequest) (r : Except MetadataStoreError Unit) (s₁ : MetadataState ν)
      (run : s.onStore (makeDirectory req.path) = (r, s₁)) : Handled env s (.makeDir req) (getClientStatus r) s₁
  | rename (req : RenameRequest) (r : Except MetadataStoreError Unit) (s₁ : MetadataState ν)
      (run : s.onStore (MetadataStore.rename req.oldPath req.newPath) = (r, s₁)) :
      Handled env s (.rename req) (getClientStatus r) s₁
  | stat (req : StatRequest) (status : ClientStatus) (s₁ : MetadataState ν)
      (run : s₁ = s ∨ ∃ r, s.onStore (MetadataStore.list req.path) = (.ok r, s₁)) : Handled env s (.stat req) status s₁

/-- The last thing that a handler does is to send its response. -/
theorem handle_handled {event : ClientEvent} (h : s.handle env event = (.ok (), s')) :
    ∃ (status : ClientStatus) (frame : Frame) (s₁ : MetadataState ν), Handled env (s.entered env) event status s₁ ∧
      Responds event status frame ∧ s' = s₁.send event.context.sender.id frame := by
  cases event with
  | createFile req =>
      cases h
      exact ⟨_, _, _, .createFile req _ _ rfl, ⟨[], rfl⟩, rfl⟩
  | writeFile req =>
      cases h
      exact ⟨_, _, _, .writeFile req _ _ rfl, ⟨[], rfl⟩, rfl⟩
  | writeChunk req =>
      rcases run : (s.entered env).writeChunk env req with ⟨r, s₁⟩
      rw [entered] at run
      simp only [handle, handleWriteChunk, run] at h
      cases r with
      | error e => cases h
      | ok status =>
          cases h
          exact ⟨status, _, s₁, .writeChunk req _ _ run, ⟨[], rfl⟩, rfl⟩
  | readFile req =>
      cases h
      exact ⟨_, _, _, .readFile req _ _ rfl, ⟨_, rfl⟩, rfl⟩
  | readChunk req =>
      cases h
      exact ⟨_, _, _, .readChunk req _ _ rfl, ⟨_, rfl⟩, rfl⟩
  | remove req =>
      cases h
      exact ⟨_, _, _, .remove req _ _ rfl, ⟨[], rfl⟩, rfl⟩
  | list req =>
      rcases run : (s.entered env).onStore (MetadataStore.list req.path) with ⟨r, s₁⟩
      rw [entered] at run
      simp only [handle, handleList, run] at h
      split at h
      · cases h
      · cases h
        exact ⟨_, _, _, .list req _ _ _ run, ⟨_, rfl⟩, rfl⟩
      · cases h
        exact ⟨_, _, _, .list req _ _ _ run, ⟨_, rfl⟩, rfl⟩
  | makeDir req =>
      cases h
      exact ⟨_, _, _, .makeDir req _ _ rfl, ⟨[], rfl⟩, rfl⟩
  | rename req =>
      cases h
      exact ⟨_, _, _, .rename req _ _ rfl, ⟨[], rfl⟩, rfl⟩
  | stat req =>
      rcases run : (s.entered env).onStore (MetadataStore.list req.path) with ⟨r, s₁⟩
      rw [entered] at run
      simp only [handle, handleStat, run] at h
      split at h
      · cases h
        exact ⟨_, _, _, .stat req _ _ (Or.inl rfl), ⟨_, rfl⟩, rfl⟩
      · split at h
        · cases h
        · cases h
          exact ⟨_, _, _, .stat req _ _ (Or.inr ⟨_, run⟩), ⟨_, rfl⟩, rfl⟩
        · cases h
          exact ⟨_, _, _, .stat req _ _ (Or.inr ⟨_, run⟩), ⟨_, rfl⟩, rfl⟩
      · cases h
        exact ⟨_, _, _, .stat req _ _ (Or.inl rfl), ⟨_, rfl⟩, rfl⟩

omit [Network ν] in
theorem onStore_network {α : Type} {f : MetadataStore → α × MetadataStore} {r : α} (h : s.onStore f = (r, s')) :
    s'.network = s.network := by
  cases h
  rfl

omit [Network ν] in
theorem onStore_list {path : Bytes} {r : Except Exn (Except MetadataStoreError (List FileInfo))}
    (run : s.onStore (MetadataStore.list path) = (r, s')) : s'.worker.store.data = s.worker.store.data := by
  rcases listed : MetadataStore.list path s.worker.store with ⟨r', store⟩
  simp only [onStore, listed] at run
  cases run
  exact list_data listed

/-- A refusal leaves the records alone. -/
theorem Handled.refused {event : ClientEvent} {status : ClientStatus} (handled : Handled env s event status s')
    (mirror : Mirrored s.worker) (bad : status ≠ .success) :
    s'.worker.store.data = s.worker.store.data ∨ s.worker.Overtaken event := by
  cases handled with
  | createFile req r s₁ run =>
      rcases added : addMetadata env.now req.path
        { path := req.path, size := 0, objId := env.objectId, replicaLocations := ([], []) } s.worker.store with ⟨r', store⟩
      simp only [onStore, added] at run
      cases run
      cases r with
      | error e => exact Or.inl ((addMetadata_data added).1 e rfl)
      | ok _ => exact absurd rfl bad
  | writeFile req status s₁ run => exact writeFile_refused run bad
  | writeChunk req status s₁ run =>
      refine Or.inl ?_
      cases (writeChunk_step run).2 with
      | unknown none same => exact congrArg MetadataStore.data same.store
      | rejected write found bad data writes => exact data
      | failed write found due data writes => exact data
      | more write found due part data writes => exact data
      | finished _ write found due last data writes =>
          rcases data with ⟨-, data⟩ | ⟨done, -⟩
          · exact data
          · exact absurd done bad
  | readFile req answer s₁ run => exact Or.inl (congrArg MetadataStore.data (readFile_step run).2.1)
  | readChunk req answer s₁ run => exact Or.inl (congrArg MetadataStore.data (readChunk_step run).1)
  | remove req status s₁ run =>
      rcases (remove_step run).2.2.1 with data | ⟨done, -⟩
      · exact Or.inl data
      · exact absurd done bad
  | list req r status s₁ run => exact Or.inl (onStore_list run)
  | makeDir req r s₁ run =>
      cases run
      exact Or.inl (makeDirectory_data rfl)
  | rename req r s₁ run =>
      rcases renamed : MetadataStore.rename req.oldPath req.newPath s.worker.store with ⟨r', store⟩
      simp only [onStore, renamed] at run
      cases run
      cases r with
      | error e => exact Or.inl (rename_error mirror.filed renamed).1
      | ok _ => exact absurd rfl bad
  | stat req status s₁ run =>
      rcases run with rfl | ⟨r, run⟩
      · exact Or.inl rfl
      · exact Or.inl (onStore_list run)

end MetadataState

end Dfs
