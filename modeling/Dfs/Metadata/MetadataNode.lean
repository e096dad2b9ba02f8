import Dfs.Metadata.MetadataWorker

/-!
# The metadata node (`MetadataNode.cpp`)

The worker thread takes client requests and heartbeats from one queue and looks for silent
storage nodes after each.
-/

namespace Dfs

open Lib

namespace MetadataWorker

/-- `heartbeat_timeout_`, ten seconds in nanoseconds. -/
def heartbeatTimeout : Int64 := 10000000000

def handleHeartbeat (now : TimePoint) (sender : NodeIdentity) (w : MetadataWorker) : MetadataWorker :=
  let info : StorageNodeInfo :=
    match w.storageNodes.lookup sender.id with
    | none => { lastSeen := now, bytesLeft := 0, available := true }
    | some info => { info with lastSeen := now, available := true }
  { w with storageNodes := w.storageNodes.insert sender.id info }

def checkHeartbeatTimeouts (now : TimePoint) (w : MetadataWorker) : MetadataWorker :=
  { w with storageNodes := Assoc.mapValues w.storageNodes fun info =>
      if info.available && heartbeatTimeout ≤ now.nanoseconds - info.lastSeen.nanoseconds then
        { info with available := false }
      else info }

/-- Known storage nodes stay known, and no others come to be known. -/
def SameNodes (w w' : MetadataWorker) : Prop :=
  ∀ node, (w'.storageNodes.lookup node).isSome = (w.storageNodes.lookup node).isSome

/-- When a storage node was last seen, and whether it counts as available. -/
def sight (w : MetadataWorker) (node : NodeId) : Option (TimePoint × Bool) :=
  (w.storageNodes.lookup node).map fun info => (info.lastSeen, info.available)

/-- No storage node has been seen or given up. -/
def SameSeen (w w' : MetadataWorker) : Prop := ∀ node, w'.sight node = w.sight node

variable {w w' w'' : MetadataWorker}

theorem SameSeen.of_eq (same : w'.storageNodes = w.storageNodes) : SameSeen w w' := fun node => by rw [sight, same, sight]

theorem SameSeen.trans (h : SameSeen w w') (h' : SameSeen w' w'') : SameSeen w w'' := fun node =>
  (h' node).trans (h node)

theorem SameSeen.nodes (h : SameSeen w w') : SameNodes w w' := fun node => by
  have same := congrArg Option.isSome (h node)
  rwa [sight, sight, Option.isSome_map, Option.isSome_map] at same

theorem setBytesLeft_seen (w : MetadataWorker) (node : NodeId) (bytesLeft : UInt64) :
    SameSeen w (w.setBytesLeft node bytesLeft) := by
  unfold setBytesLeft
  split
  · exact .of_eq rfl
  · rename_i info found
    intro other
    rw [sight, sight]
    dsimp only
    rw [Assoc.lookup_insert_ite]
    split
    · rename_i here
      rw [here, found]
      rfl
    · rfl

end MetadataWorker

namespace MetadataState

open MetadataWorker

variable {ν : Type} [Network ν] {s s' : MetadataState ν} {env : Env}

omit [Network ν] in
theorem openWrite_nodes {req : WriteFileRequest} {objectId : Bytes} {replicas : NodeId × NodeId} {status : ClientStatus}
    (h : s.openWrite req objectId replicas = (status, s')) : s'.worker.storageNodes = s.worker.storageNodes := by
  unfold openWrite at h
  split at h <;> cases h <;> rfl

omit [Network ν] in
theorem startWrite_nodes {req : WriteFileRequest} {m : FileMetadata} {status : ClientStatus}
    (h : s.startWrite env req m = (status, s')) : s'.worker.storageNodes = s.worker.storageNodes := by
  have stored : ∀ {α : Type} {f : MetadataStore → α × MetadataStore} {r : α} {s₁ : MetadataState ν},
      s.onStore f = (r, s₁) → s₁.worker.storageNodes = s.worker.storageNodes := fun h => by
    cases h
    rfl
  unfold startWrite at h
  dsimp only at h
  split at h
  · cases h
    rfl
  split at h
  · cases h
    rfl
  split at h
  · cases h
    rfl
  split at h
  · split at h <;> rename_i updated <;> cases h <;> exact stored updated
  split at h
  · split at h
    · exact openWrite_nodes h
    · cases h
      rfl
  split at h
  · cases h
    rfl
  split at h
  · rename_i updated
    cases h
    exact stored updated
  · rename_i updated
    exact (openWrite_nodes h).trans (stored updated)

omit [Network ν] in
theorem writeFile_nodes {req : WriteFileRequest} {status : ClientStatus} (h : s.writeFile env req = (status, s')) :
    s'.worker.storageNodes = s.worker.storageNodes := by
  unfold writeFile at h
  split at h
  · cases h
    rfl
  split at h
  · exact startWrite_nodes h
  · exact startWrite_nodes h
  · cases h
    rfl

theorem awaitPut_seen {req : WriteChunkRequest} {replica : NodeId} {r : Except Exn Bool}
    (h : s.awaitPut req replica = (r, s')) : SameSeen s.worker s'.worker := by
  unfold awaitPut receiveIf at h
  dsimp only at h
  split at h
  · rename_i received
    cases (Prod.mk.inj received).2
    cases h
    exact .of_eq rfl
  · rename_i received
    cases (Prod.mk.inj received).2
    split at h <;> cases h
    · exact .of_eq rfl
    · exact setBytesLeft_seen _ _ _

theorem awaitPuts_seen {req : WriteChunkRequest} {replicas : NodeId × NodeId} {r : Except Exn Bool}
    (h : s.awaitPuts req replicas = (r, s')) : SameSeen s.worker s'.worker := by
  unfold awaitPuts at h
  split at h
  · rename_i first
    cases h
    exact awaitPut_seen first
  · rename_i first
    have same := awaitPut_seen first
    split at h <;> rename_i second <;> cases h <;> exact same.trans (awaitPut_seen second)

theorem writeChunk_seen {req : WriteChunkRequest} {r : Except Exn ClientStatus}
    (h : s.writeChunk env req = (r, s')) : SameSeen s.worker s'.worker := by
  unfold writeChunk at h
  split at h
  · cases h
    exact .of_eq rfl
  split at h
  · cases h
    exact .of_eq rfl
  split at h
  · cases h
    exact .of_eq rfl
  dsimp only at h
  split at h
  · rename_i waited
    cases h
    have same := awaitPuts_seen waited
    exact same
  · rename_i waited
    cases h
    have same := awaitPuts_seen waited
    exact same
  · rename_i s₁ waited
    have same := awaitPuts_seen waited
    cases h
    refine SameSeen.trans same (.of_eq ?_)
    unfold acceptChunk
    dsimp only
    split <;> rfl

theorem fetchChunk_nodes {req : ReadChunkRequest} {objectId : Bytes} {expected : UInt32} {nodes : List NodeId}
    {r : Option Bytes} (h : s.fetchChunk req objectId expected nodes = (r, s')) :
    s'.worker.storageNodes = s.worker.storageNodes := by
  induction nodes generalizing s with
  | nil =>
      cases h
      rfl
  | cons node rest ih =>
      unfold fetchChunk at h
      split at h
      · exact ih h
      · dsimp only [receiveIf, send] at h
        split at h
        · rename_i received
          cases (Prod.mk.inj received).2
          have same := ih h
          exact same
        · rename_i received
          cases (Prod.mk.inj received).2
          split at h
          · have same := ih h
            exact same
          · cases h
            rfl

omit [Network ν] in
theorem readFile_nodes {req : ReadFileRequest} {answer : ClientStatus × UInt64 × UInt32}
    (h : s.readFile req = (answer, s')) : s'.worker.storageNodes = s.worker.storageNodes := by
  unfold readFile at h
  dsimp only at h
  repeat' split at h
  all_goals
    cases h
    rfl

theorem readChunk_nodes {req : ReadChunkRequest} {answer : ClientStatus × Bytes} (h : s.readChunk req = (answer, s')) :
    s'.worker.storageNodes = s.worker.storageNodes := by
  unfold readChunk at h
  split at h
  · cases h
    rfl
  split at h
  · cases h
    rfl
  dsimp only at h
  split at h <;> rename_i fetched <;> cases h <;> have same := fetchChunk_nodes fetched
  · exact same
  · dsimp only
    split <;> exact same

theorem awaitDelete_nodes (s : MetadataState ν) (id : UInt64) (replica : NodeId) :
    (s.awaitDelete id replica).2.worker.storageNodes = s.worker.storageNodes := by
  unfold awaitDelete receiveIf
  dsimp only
  split
  · rename_i received
    cases (Prod.mk.inj received).2
    rfl
  · rename_i received
    cases (Prod.mk.inj received).2
    split <;> rfl

theorem remove_nodes {req : RemoveRequest} {status : ClientStatus} (h : s.remove req = (status, s')) :
    s'.worker.storageNodes = s.worker.storageNodes := by
  unfold remove at h
  split at h
  · cases h
    rfl
  split at h
  · cases h
    rfl
  · cases h
    rfl
  dsimp only at h
  split at h
  · cases h
    rfl
  split at h
  · cases h
    rfl
  split at h
  · unfold removeObject at h
    dsimp only [send] at h
    split at h <;> cases h <;> simp only [onStore, awaitDelete_nodes]
  · cases h
    rfl

/-- A storage node is seen by its heartbeats only. -/
theorem handle_seen {event : ClientEvent} (h : s.handle env event = (.ok (), s')) : SameSeen s.worker s'.worker := by
  cases event with
  | createFile req =>
      cases h
      exact .of_eq rfl
  | writeFile req =>
      rcases handled : MetadataState.writeFile env req { s with worker := s.worker.withOutcomes env.outcomes } with ⟨answer, s₁⟩
      have same := writeFile_nodes handled
      simp only [handle, handleWriteFile, handled] at h
      cases h
      exact .of_eq same
  | writeChunk req =>
      rcases written : MetadataState.writeChunk env req { s with worker := s.worker.withOutcomes env.outcomes }
        with ⟨r, s₁⟩
      simp only [handle, handleWriteChunk, written] at h
      cases r with
      | error e => cases h
      | ok status =>
          cases h
          exact fun node => writeChunk_seen written node
  | readFile req =>
      rcases handled : MetadataState.readFile req { s with worker := s.worker.withOutcomes env.outcomes } with ⟨answer, s₁⟩
      have same := readFile_nodes handled
      simp only [handle, handleReadFile, handled] at h
      cases h
      exact .of_eq same
  | readChunk req =>
      rcases handled : MetadataState.readChunk req { s with worker := s.worker.withOutcomes env.outcomes } with ⟨answer, s₁⟩
      have same := readChunk_nodes handled
      simp only [handle, handleReadChunk, handled] at h
      cases h
      exact .of_eq same
  | remove req =>
      rcases handled : MetadataState.remove req { s with worker := s.worker.withOutcomes env.outcomes } with ⟨answer, s₁⟩
      have same := remove_nodes handled
      simp only [handle, handleRemove, handled] at h
      cases h
      exact .of_eq same
  | list req =>
      simp only [handle, handleList, onStore] at h
      split at h <;> cases h <;> exact .of_eq rfl
  | makeDir req =>
      cases h
      exact .of_eq rfl
  | rename req =>
      cases h
      exact .of_eq rfl
  | stat req =>
      simp only [handle, handleStat, onStore] at h
      split at h
      · cases h
        exact .of_eq rfl
      · split at h <;> cases h <;> exact .of_eq rfl
      · cases h
        exact .of_eq rfl

/-- Only heartbeats make storage nodes known. -/
theorem handle_nodes {event : ClientEvent} (h : s.handle env event = (.ok (), s')) : SameNodes s.worker s'.worker :=
  (handle_seen h).nodes

end MetadataState

end Dfs
