import Dfs.System.Cluster
import Dfs.Metadata.Ownership

/-!
# Who has an object, along a run

Object ids, readers and removers over all runs of the metadata node, whatever the storage
nodes do.
-/

namespace Dfs

open Lib

namespace MetadataState

open MetadataWorker

variable {s s' : System}

theorem awaitDelete_sent (id : UInt64) (replica : NodeId) :
    (s.awaitDelete id replica).2.network.sent = s.network.sent := by
  have same := fun p => s.network.receiveIf_sent storageRequestTimeout p
  unfold awaitDelete receiveIf
  dsimp only
  split
  · rename_i received
    cases (Prod.mk.inj received).2
    exact same _
  · rename_i received
    cases (Prod.mk.inj received).2
    split <;> exact same _

/-- The `DELETE`s of a `Remove` are for the object recorded at its path. -/
theorem remove_sent {req : RemoveRequest} {status : ClientStatus} (h : s.remove req = (status, s')) :
    s'.network.sent = s.network.sent ∨
      ∃ m id, s.worker.store.data.lookup (MetadataStore.key req.path) = some m ∧
        s'.network.sent = s.network.sent ++
          [(m.replicaLocations.1, StorageProtocol.encodeDeleteRequest id { objectId := m.objId, context := req.context }),
            (m.replicaLocations.2,
              StorageProtocol.encodeDeleteRequest id { objectId := m.objId, context := req.context })] := by
  unfold remove at h
  split at h
  · cases h
    exact Or.inl rfl
  split at h
  · cases h
    exact Or.inl rfl
  · cases h
    exact Or.inl rfl
  rename_i m found
  dsimp only at h
  split at h
  · cases h
    exact Or.inl rfl
  split at h
  · cases h
    exact Or.inl rfl
  split at h
  · refine Or.inr ⟨m, s.worker.currentStorageRequestId + 1, (MetadataStore.getMetadata_ok found).2, ?_⟩
    unfold removeObject at h
    dsimp only [send] at h
    split at h <;> cases h <;>
      simp only [onStore, awaitDelete_sent, Cluster.send_sent, List.append_assoc, List.singleton_append]
  · cases h
    exact Or.inl rfl

end MetadataState

namespace StorageProtocol

theorem encodeDeleteRequest_object {id id' : UInt64} {delete delete' : DeleteRequest}
    (same : encodeDeleteRequest id delete = encodeDeleteRequest id' delete') : delete.objectId = delete'.objectId := by
  have buffers := congrArg Frame.buffer same
  simp only [encodeDeleteRequest, Rpc.makeFrame] at buffers
  have bodies := (List.append_inj buffers (by simp [write])).2
  simpa [write] using bodies

theorem encodeDeleteRequest_client {id id' : UInt64} {delete : DeleteRequest} {job : ClientJob} {kind : RpcKind}
    {body : Bytes} : encodeDeleteRequest id delete ≠ Rpc.makeFrame id' job kind body := fun same => by
  have types := congrArg (fun f : Frame => f.header.type) same
  cases types

end StorageProtocol

namespace System

open MetadataStore MetadataWorker MetadataState

variable {s s' : System} {e : SystemEvent} {events : List SystemEvent}

/-- No records and no sessions yet. -/
structure Initial (s : System) : Prop where
  records : s.worker.store.data = ∅
  reads : s.worker.pendingReads = ∅
  writes : s.worker.pendingWrites = ∅

/-- The ids that the generator yields along the events. -/
def issued (events : List SystemEvent) : List Bytes :=
  events.flatMap fun
    | .request event env _ => drawn env event
    | _ => []

/-- A rename leaves every record in place whose object a session is writing. -/
def sparesWritten (s : System) : SystemEvent → Prop
  | .request event env _ => (s.worker.withOutcomes env.outcomes).sparesWritten event
  | _ => True

theorem initial_exclusive (initial : s.Initial) (ids : List Bytes) : s.worker.Exclusive ids := by
  have none : ∀ c, s.worker.findWrite c = none := fun c => by
    rw [findWrite, initial.writes]
    exact Nested.find_empty _ _
  refine ⟨fun k m found => ?_, fun c write found => ?_, fun k m found => ?_, fun c write found => ?_,
    fun c write found => ?_⟩
  · simp [initial.records] at found
  · simp [none] at found
  · simp [initial.records] at found
  · simp [none] at found
  · simp [none] at found

theorem next_exclusive (exclusive : s.worker.Exclusive (issued (e :: events))) (once : (issued (e :: events)).Nodup)
    (spares : s.sparesWritten e) (h : s.next e = .ok s') : s'.worker.Exclusive (issued events) := by
  cases e with
  | request event env script =>
      simp only [next] at h
      split at h
      · cases h
      · rename_i handled
        cases h
        exact (handle_step handled).exclusive (exclusive.within (.of_same rfl rfl)) once spares
  | storage acts =>
      cases h
      exact exclusive
  | heartbeat now sender =>
      cases h
      exact exclusive.within (.of_same rfl rfl)
  | checkTimeouts now =>
      cases h
      exact exclusive.within (.of_same rfl rfl)

theorem run_exclusive (initial : s.Initial) (once : (issued events).Nodup)
    (spares : Along next sparesWritten s events) (h : s.run events = .ok s') : s'.worker.Exclusive [] := by
  have start : s.worker.Exclusive (issued events) ∧ (issued events).Nodup := ⟨initial_exclusive initial _, once⟩
  refine (run_invariant (P := fun s events => s.worker.Exclusive (issued events) ∧ (issued events).Nodup)
    (fun s s' e events holds spares stepped => ?_) start spares h).1
  exact ⟨next_exclusive holds.1 holds.2 spares stepped, (List.nodup_append.1 holds.2).2.1⟩

/-- The `DELETE`s of a `Remove` name no object that another path has. -/
def RemovesOwn (s : System) : Prop :=
  ∀ (req : RemoveRequest) (env : Env) (script : List (List Act)) (s' : System),
    s.next (.request (.remove req) env script) = .ok s' →
    ∀ node id delete, (node, StorageProtocol.encodeDeleteRequest id delete) ∈
        s'.network.sent.drop s.network.sent.length →
      ∀ k m, s.worker.store.data.lookup k = some m → m.objId = delete.objectId → k = key req.path

theorem removesOwn (unshared : Unshared s.worker.store.data) : s.RemovesOwn := by
  intro req env script s' h node id delete mem k m found same
  rcases removed : (s.prepared env script).remove req with ⟨status, s₁⟩
  have last : s' = s₁.respond req.context fun id => ClientProtocol.encodeRemoveResponse id { status } := by
    rw [← Except.ok.inj h]
    change handleRemove req (s.prepared env script) = _
    rw [handleRemove, removed]
  rw [last] at mem
  simp only [respond, send, Cluster.send_sent] at mem
  rcases remove_sent removed with sent | ⟨m₁, id₁, here, sent⟩
  · simp only [sent, prepared_sent, List.drop_left, List.mem_singleton, Prod.mk.injEq] at mem
    exact absurd mem.2 StorageProtocol.encodeDeleteRequest_client
  · simp only [sent, prepared_sent, List.append_assoc, List.drop_left, List.mem_append, List.mem_cons, Prod.mk.injEq,
      List.not_mem_nil, or_false] at mem
    rcases mem with (⟨-, frame⟩ | ⟨-, frame⟩) | ⟨-, frame⟩
    · exact unshared k _ m m₁ found here (same.trans (StorageProtocol.encodeDeleteRequest_object frame))
    · exact unshared k _ m m₁ found here (same.trans (StorageProtocol.encodeDeleteRequest_object frame))
    · exact absurd frame StorageProtocol.encodeDeleteRequest_client

/-- As long as no rename moves a file that is being written, no two paths have one object, and a
`Remove` deletes the object of its own path only. -/
theorem objects_unshared (initial : s.Initial) (once : (issued events).Nodup)
    (spares : Along next sparesWritten s events) (h : s.run events = .ok s') :
    Unshared s'.worker.store.data ∧ s'.RemovesOwn :=
  have unshared := (run_exclusive initial once spares h).unshared
  ⟨unshared, removesOwn unshared⟩

/-- File `"p"` is created and renamed to `"q"`, and `"r"` is opened for writing. -/
def renamedUnwritten : List SystemEvent := joined ++
  [.request (.createFile { path := [112], context := fromClient 1 }) { first := 7 } [],
    .request (.rename { oldPath := [112], newPath := [113], context := fromClient 2 }) {} [],
    .request (.writeFile { path := [114], fileSize := 1, chunkCount := 1, context := fromClient 3 }) { first := 8 } []]

theorem renamedUnwritten_spares : Along next sparesWritten start renamedUnwritten := by
  refine ⟨trivial, fun s₁ h₁ => ⟨trivial, fun s₂ h₂ => ⟨trivial, fun s₃ h₃ =>
    ⟨?_, fun s₄ h₄ => ⟨trivial, fun _ _ => trivial⟩⟩⟩⟩⟩
  cases h₁
  cases h₂
  cases h₃
  intro context write k m found
  cases found.symm.trans (Nested.find_empty context.sender.id context.requestId)

theorem objects_unshared_renamedUnwritten :
    ∃ s', start.run renamedUnwritten = .ok s' ∧ Unshared s'.worker.store.data ∧ s'.RemovesOwn := by
  obtain ⟨s', ran, -⟩ := exists_ok (r := start.run renamedUnwritten) (f := fun _ => true) (by decide +kernel)
  exact ⟨s', ran, objects_unshared ⟨rfl, rfl, rfl⟩ (by decide +kernel) renamedUnwritten_spares ran⟩

/-- A session for `"p"` is open while `"p"` is renamed to `"q"`; its last chunk brings `"p"` back. -/
def renamedWhileWritten : List SystemEvent := joined ++
  [.request (.writeFile { path := [112], fileSize := 1, chunkCount := 1, context := fromClient 1 }) { first := 7 } [],
    .request (.rename { oldPath := [112], newPath := [113], context := fromClient 2 }) {} [],
    .request (.writeChunk { chunkIndex := 0, data := [5], context := fromClient 1 }) {} [served]]

def objectAt (s : System) (path : Bytes) : Option Bytes := (s.worker.store.data.lookup (key path)).map (·.objId)

/-- Both `"p"` and `"q"` end up with the object of the session. -/
theorem objects_shared :
    ¬ ∀ (s s' : System) (events : List SystemEvent), s.Initial → (issued events).Nodup → s.run events = .ok s' →
      Unshared s'.worker.store.data ∧ s'.RemovesOwn := by
  intro always
  obtain ⟨s', ran, both⟩ := exists_ok (r := start.run renamedWhileWritten)
    (f := fun s => s.objectAt [112] = some (ObjectId.generate 7 0) ∧ s.objectAt [113] = some (ObjectId.generate 7 0))
    (by decide +kernel)
  rw [decide_eq_true_eq] at both
  obtain ⟨m, foundP, objP⟩ := Option.map_eq_some_iff.1 both.1
  obtain ⟨m', foundQ, objQ⟩ := Option.map_eq_some_iff.1 both.2
  have same := (always start s' _ ⟨rfl, rfl, rfl⟩ (by decide +kernel) ran).1 _ _ _ _ foundP foundQ (objP.trans objQ.symm)
  exact absurd same (by decide)

/-! ## Readers and removers -/

/-- No session is writing the object of the file at `path`. -/
def Undisturbed (s : System) (path : Bytes) : Prop :=
  ∀ m context write, s.worker.store.data.lookup (key path) = some m → s.worker.findWrite context = some write →
    write.objectId ≠ m.objId

/-- Sessions spell this path as `path` does. -/
def SpelledAlike (s : System) (path : Bytes) : Prop :=
  ∀ context write, s.worker.findWrite context = some write → PosixPath.samePath write.path path = true →
    write.path = path

/-- A `ReadFile` or a `Remove` of `path` would be answered `Success`. -/
def Grants (s : System) (path : Bytes) : Prop :=
  ∃ env script, (∃ context, ((s.prepared env script).readFile ⟨path, context⟩).1.1 = .success) ∨
    ∃ context, ((s.prepared env script).remove ⟨path, context⟩).1 = .success

theorem grants_unwritten {path : Bytes} (grants : s.Grants path) : s.worker.beingWritten path = false := by
  obtain ⟨env, script, ⟨context, success⟩ | ⟨context, success⟩⟩ := grants
  · exact ((readFile_step (s := s.prepared env script) rfl).2.2.2 success).1
  · exact ((remove_step (s := s.prepared env script) rfl).2.2.2 success).1

theorem undisturbed_of_exclusive {path : Bytes} (exclusive : s.worker.Exclusive []) (spelled : s.SpelledAlike path)
    (unwritten : s.worker.beingWritten path = false) : s.Undisturbed path := by
  intro m context write found pending same
  have here : key path = key write.path := (exclusive.writes context write pending).records _ m found same.symm
  have spelling : write.path = path := spelled context write pending (by
    rw [PosixPath.samePath, decide_eq_true_eq]
    exact here.symm)
  have written : s.worker.beingWritten path = true :=
    (Nested.any_iff _ _).2 ⟨_, _, write, pending, by simpa using spelling⟩
  rw [unwritten] at written
  cases written

/-- As long as no rename moves a file that is being written, and where all sessions spell the path
alike, readers and removers of a file are turned away while it is written. -/
theorem granted_undisturbed (initial : s.Initial) (once : (issued events).Nodup)
    (spares : Along next sparesWritten s events) (h : s.run events = .ok s') {path : Bytes}
    (spelled : s'.SpelledAlike path) (grants : s'.Grants path) : s'.Undisturbed path :=
  undisturbed_of_exclusive (run_exclusive initial once spares h) spelled (grants_unwritten grants)

theorem spelledAlike_of_any {path : Bytes}
    (h : Nested.any s.worker.pendingWrites (fun write => PosixPath.samePath write.path path && write.path != path) = false) :
    s.SpelledAlike path := by
  intro context write pending same
  by_contra differs
  rw [← Bool.not_eq_true, Nested.any_iff] at h
  exact h ⟨_, _, write, pending, by simp [same, differs]⟩

/-- `"q"` may be read while `"r"` is written. -/
theorem granted_undisturbed_renamedUnwritten :
    ∃ s', start.run renamedUnwritten = .ok s' ∧ s'.Grants [113] ∧ s'.Undisturbed [113] := by
  obtain ⟨s', ran, free⟩ := exists_ok (r := start.run renamedUnwritten)
    (f := fun s => Nested.any s.worker.pendingWrites
        (fun write => PosixPath.samePath write.path [113] && write.path != [113]) = false ∧
      ((s.prepared {} []).readFile ⟨[113], fromClient 4⟩).1.1 = .success)
    (by decide +kernel)
  rw [decide_eq_true_eq] at free
  have grants : s'.Grants [113] := ⟨{}, [], Or.inl ⟨fromClient 4, free.2⟩⟩
  exact ⟨s', ran, grants, granted_undisturbed ⟨rfl, rfl, rfl⟩ (by decide +kernel) renamedUnwritten_spares ran
    (spelledAlike_of_any free.1) grants⟩

/-- File `"d//f"` is opened for writing. -/
def writtenBySlashes : List SystemEvent := joined ++
  [.request (.writeFile { path := [100, 47, 47, 102], fileSize := 1, chunkCount := 1, context := fromClient 1 })
    { first := 7 } []]

/-- A reader of `"d/f"` is let in while the session for `"d//f"` is open. -/
theorem granted_disturbed :
    ¬ ∀ (s s' : System) (events : List SystemEvent) (path : Bytes), s.Initial → (issued events).Nodup →
      s.run events = .ok s' → s'.Grants path → s'.Undisturbed path := by
  intro always
  obtain ⟨s', ran, facts⟩ := exists_ok (r := start.run writtenBySlashes)
    (f := fun s => ((s.prepared {} []).readFile ⟨[100, 47, 102], fromClient 2⟩).1.1 = .success ∧
      s.objectAt [100, 47, 102] = some (ObjectId.generate 7 0) ∧
      (s.worker.findWrite (fromClient 1)).map (·.objectId) = some (ObjectId.generate 7 0))
    (by decide +kernel)
  rw [decide_eq_true_eq] at facts
  obtain ⟨success, recorded, pending⟩ := facts
  obtain ⟨m, found, objId⟩ := Option.map_eq_some_iff.1 recorded
  obtain ⟨write, pending, objectId⟩ := Option.map_eq_some_iff.1 pending
  exact always start s' _ _ ⟨rfl, rfl, rfl⟩ (by decide +kernel) ran ⟨{}, [], Or.inl ⟨fromClient 2, success⟩⟩
    m (fromClient 1) write found pending (objectId.trans objId.symm)

end System

end Dfs
