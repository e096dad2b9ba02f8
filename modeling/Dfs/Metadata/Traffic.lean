import Dfs.Metadata.Answers

/-!
# What the handlers do to the network

A handler sends frames and waits for messages, and does nothing else to the network. So
whatever holds of the network and survives both survives the handler, also one that ends with
an exception. Which frames it can send shows from the tables before it starts.
-/

namespace Dfs

open Lib

/-- The network `n` becomes by sending frames that satisfy `F` and by waiting for messages. -/
inductive Network.Used {ν : Type} [Network ν] (F : Frame → Prop) (n : ν) : ν → Prop where
  | refl : Used F n n
  | send {n' : ν} (used : Used F n n') (node : NodeId) (frame : Frame) (allowed : F frame) :
      Used F n (Network.send node frame n')
  | receiveIf {n' : ν} (used : Used F n n') (timeout : Nat) (p : Message → Bool) :
      Used F n (Network.receiveIf timeout p n').2

/-- What sending and waiting keep is kept. -/
theorem Network.Used.keeps {ν : Type} [Network ν] {F : Frame → Prop} {P : ν → Prop} {n n' : ν} (used : Used F n n')
    (sends : ∀ n node frame, P n → F frame → P (Network.send node frame n))
    (waits : ∀ n timeout p, P n → P (Network.receiveIf timeout p n).2) (holds : P n) : P n' := by
  induction used with
  | refl => exact holds
  | send used node frame allowed ih => exact sends _ node frame ih allowed
  | receiveIf used timeout p ih => exact waits _ timeout p ih

namespace MetadataState

open MetadataWorker Network

variable {ν : Type} [Network ν] {F : Frame → Prop} {n : ν} {s : MetadataState ν}

/-! ## Waiting -/

theorem awaitPut_used (req : WriteChunkRequest) (replica : NodeId) (used : Used F n s.network) :
    Used F n (s.awaitPut req replica).2.network := by
  unfold awaitPut receiveIf
  dsimp only
  split
  · rename_i received
    cases (Prod.mk.inj received).2
    exact used.receiveIf _ _
  · rename_i received
    cases (Prod.mk.inj received).2
    split <;> exact used.receiveIf _ _

theorem awaitPuts_used (req : WriteChunkRequest) (replicas : NodeId × NodeId) (used : Used F n s.network) :
    Used F n (s.awaitPuts req replicas).2.network := by
  unfold awaitPuts
  have first := awaitPut_used req replicas.1 used
  rcases asked : s.awaitPut req replicas.1 with ⟨r₁, s₁⟩
  rw [asked] at first
  cases r₁ with
  | error e => exact first
  | ok a =>
      have second := awaitPut_used req replicas.2 first
      dsimp only
      rcases asked₁ : s₁.awaitPut req replicas.2 with ⟨r₂, s₂⟩
      rw [asked₁] at second
      cases r₂ <;> exact second

theorem awaitDelete_used (id : UInt64) (replica : NodeId) (used : Used F n s.network) :
    Used F n (s.awaitDelete id replica).2.network := by
  unfold awaitDelete receiveIf
  dsimp only
  split
  · rename_i received
    cases (Prod.mk.inj received).2
    exact used.receiveIf _ _
  · rename_i received
    cases (Prod.mk.inj received).2
    split <;> exact used.receiveIf _ _

/-! ## Requests to storage nodes -/

theorem writeChunk_used (env : Env) {req : WriteChunkRequest} (used : Used F n s.network)
    (puts : ∀ write, s.worker.findWrite req.context = some write → write.Due req →
      F (StorageProtocol.encodePutRequest req.context.requestId (putOf req write))) :
    Used F n (s.writeChunk env req).2.network := by
  unfold writeChunk
  split
  · exact used
  rename_i write found
  split
  · exact used
  rename_i turn
  split
  · exact used
  rename_i length
  have put := puts write found (by
    simp only [not_or, ne_eq, not_not] at turn length
    exact ⟨turn.1, UInt32.not_le.1 turn.2, length⟩)
  dsimp only
  have waited := awaitPuts_used req write.replicas
    (s := (s.send write.replicas.1 (StorageProtocol.encodePutRequest req.context.requestId (putOf req write))).send
      write.replicas.2 (StorageProtocol.encodePutRequest req.context.requestId (putOf req write)))
    ((used.send _ _ put).send _ _ put)
  split <;> rename_i asked <;> rw [asked] at waited
  · exact waited
  · exact waited
  · rename_i s₁
    rcases accepted : s₁.acceptChunk env req write with ⟨status, s₂⟩
    have same := acceptChunk_network accepted
    dsimp only at waited ⊢
    rwa [same]

theorem fetchChunk_used {req : ReadChunkRequest} {objectId : Bytes} {expected : UInt32} (nodes : List NodeId)
    (used : Used F n s.network)
    (gets : ∀ id, F (StorageProtocol.encodeGetRequest id
      { objectId, chunkIndex := req.chunkIndex, byteCount := expected, context := req.context })) :
    Used F n (s.fetchChunk req objectId expected nodes).2.network := by
  induction nodes generalizing s with
  | nil => exact used
  | cons node rest ih =>
      unfold fetchChunk
      split
      · exact ih used
      · dsimp only [receiveIf, send]
        split
        · rename_i received
          cases (Prod.mk.inj received).2
          exact ih ((used.send _ _ (gets _)).receiveIf _ _)
        · rename_i received
          cases (Prod.mk.inj received).2
          split
          · exact ih ((used.send _ _ (gets _)).receiveIf _ _)
          · exact (used.send _ _ (gets _)).receiveIf _ _

theorem readChunk_used {req : ReadChunkRequest} (used : Used F n s.network)
    (gets : ∀ read, s.worker.findRead req.context = some read → ∀ id, F (StorageProtocol.encodeGetRequest id
      { objectId := read.objectId, chunkIndex := req.chunkIndex
        byteCount := (expectedSize read.fileSize req.chunkIndex).toUInt32, context := req.context })) :
    Used F n (s.readChunk req).2.network := by
  unfold readChunk
  split
  · exact used
  rename_i read found
  split
  · exact used
  have fetched := fetchChunk_used [read.replicas.1, read.replicas.2] used (gets read found)
  dsimp only
  split <;> rename_i got <;> rw [got] at fetched <;> exact fetched

theorem removeObject_used {req : RemoveRequest} {m : FileMetadata} (used : Used F n s.network)
    (deletes : ∀ id, F (StorageProtocol.encodeDeleteRequest id { objectId := m.objId, context := req.context })) :
    Used F n (s.removeObject req m).2.network := by
  unfold removeObject
  dsimp only
  have first := awaitDelete_used (s := (({ s with
      worker := { s.worker with currentStorageRequestId := s.worker.currentStorageRequestId + 1 } } : MetadataState ν).send
        m.replicaLocations.1 (StorageProtocol.encodeDeleteRequest (s.worker.currentStorageRequestId + 1)
          { objectId := m.objId, context := req.context })).send m.replicaLocations.2
        (StorageProtocol.encodeDeleteRequest (s.worker.currentStorageRequestId + 1)
          { objectId := m.objId, context := req.context }))
    (s.worker.currentStorageRequestId + 1) m.replicaLocations.1
    ((used.send _ _ (deletes _)).send _ _ (deletes _))
  have second := awaitDelete_used (s.worker.currentStorageRequestId + 1) m.replicaLocations.2 first
  split <;> exact second

theorem remove_used {req : RemoveRequest} (used : Used F n s.network)
    (deletes : ∀ m, s.worker.store.getMetadata req.path = .ok m → ∀ id,
      F (StorageProtocol.encodeDeleteRequest id { objectId := m.objId, context := req.context })) :
    Used F n (s.remove req).2.network := by
  unfold remove
  split
  · exact used
  split
  · exact used
  · exact used
  rename_i m found
  dsimp only
  split
  · exact used
  split
  · exact used
  split
  · exact removeObject_used used (deletes m found)
  · exact used

/-- What the handler may ask storage nodes for satisfies `F`. -/
def Asks (F : Frame → Prop) (w : MetadataWorker) : ClientEvent → Prop
  | .writeChunk req => ∀ write, w.findWrite req.context = some write → write.Due req →
      F (StorageProtocol.encodePutRequest req.context.requestId (putOf req write))
  | .readChunk req => ∀ read, w.findRead req.context = some read → ∀ id,
      F (StorageProtocol.encodeGetRequest id
        { objectId := read.objectId, chunkIndex := req.chunkIndex
          byteCount := (expectedSize read.fileSize req.chunkIndex).toUInt32, context := req.context })
  | .remove req => ∀ m, w.store.getMetadata req.path = .ok m → ∀ id,
      F (StorageProtocol.encodeDeleteRequest id { objectId := m.objId, context := req.context })
  | _ => True

/-- Up to its response a handler sends what it asks for. -/
theorem handled_used {env : Env} {event : ClientEvent} {status : ClientStatus} {s' : MetadataState ν}
    (handled : Handled env s event status s') (asks : Asks F s.worker event) : Used F s.network s'.network := by
  cases handled with
  | createFile req r s₁ run =>
      cases run
      exact .refl
  | writeFile req status s₁ run => exact (writeFile_step run).1 ▸ .refl
  | writeChunk req status s₁ run =>
      have used := writeChunk_used env .refl asks
      rwa [run] at used
  | readFile req answer s₁ run => exact (readFile_step run).1 ▸ .refl
  | readChunk req answer s₁ run =>
      have used := readChunk_used .refl asks
      rwa [run] at used
  | remove req status s₁ run =>
      have used := remove_used .refl asks
      rwa [run] at used
  | list req r status s₁ run => exact onStore_network run ▸ .refl
  | makeDir req r s₁ run =>
      cases run
      exact .refl
  | rename req r s₁ run =>
      cases run
      exact .refl
  | stat req status s₁ run =>
      rcases run with rfl | ⟨r, run⟩
      · exact .refl
      · exact onStore_network run ▸ .refl

/-- Also a handler that throws sends nothing else. -/
theorem handle_sends {env : Env} {event : ClientEvent} (asks : Asks F (s.entered env).worker event)
    (responds : ∀ status frame, Responds event status frame → F frame) : Used F s.network (s.handle env event).2.network := by
  rcases handled : s.handle env event with ⟨r, s'⟩
  cases r with
  | ok _ =>
      obtain ⟨status, frame, s₁, result, answer, rfl⟩ := handle_handled handled
      have used : Used F s.network s₁.network := handled_used (s := s.entered env) result asks
      exact used.send _ _ (responds status frame answer)
  | error e =>
      cases event with
      | writeChunk req =>
          have used := writeChunk_used (s := s.entered env) env .refl asks
          rcases written : (s.entered env).writeChunk env req with ⟨r, s₁⟩
          rw [written] at used
          rw [entered] at written
          simp only [handle, handleWriteChunk, written] at handled
          cases r with
          | ok status => cases handled
          | error e =>
              cases handled
              exact used
      | list req =>
          rcases read : (s.entered env).onStore (MetadataStore.list req.path) with ⟨r, s₁⟩
          have same : s₁.network = (s.entered env).network := onStore_network read
          rw [entered] at read
          simp only [handle, handleList, read] at handled
          split at handled <;> cases handled
          rw [same]
          exact .refl
      | stat req =>
          rcases read : (s.entered env).onStore (MetadataStore.list req.path) with ⟨r, s₁⟩
          have same : s₁.network = (s.entered env).network := onStore_network read
          rw [entered] at read
          simp only [handle, handleStat, read] at handled
          split at handled
          · cases handled
          · split at handled <;> cases handled
            rw [same]
            exact .refl
          · cases handled
      | _ => cases handled

end MetadataState

end Dfs
