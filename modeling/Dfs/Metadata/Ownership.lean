import Dfs.Metadata.WorkerSteps

/-!
# Objects belong to one path

Records and write sessions name an object and a path. Nothing in the metadata worker ties the
two together, but as long as no rename moves the record of a file that is being written, an
object stays with one path for ever.
-/

namespace Dfs

open Lib

namespace MetadataWorker

open MetadataStore

variable {w w' : MetadataWorker} {k : FilePath} {x : Bytes} {fresh : List Bytes}

/-- Only the record at `k` and sessions for `k` have the object `x`. -/
structure Owns (w : MetadataWorker) (k : FilePath) (x : Bytes) : Prop where
  records : ∀ k' m, w.store.data.lookup k' = some m → m.objId = x → k' = k
  writes : ∀ context write, w.findWrite context = some write → write.objectId = x → key write.path = k

/-- Every object belongs to one path, and none of the ids in `fresh` is in use. -/
structure Exclusive (w : MetadataWorker) (fresh : List Bytes) : Prop where
  records : ∀ k m, w.store.data.lookup k = some m → w.Owns k m.objId
  writes : ∀ context write, w.findWrite context = some write → w.Owns (key write.path) write.objectId
  freshRecords : ∀ k m, w.store.data.lookup k = some m → m.objId ∉ fresh
  freshWrites : ∀ context write, w.findWrite context = some write → write.objectId ∉ fresh
  valid : ∀ context write, w.findWrite context = some write → validFilename write.path = true

theorem Exclusive.unshared (exclusive : w.Exclusive fresh) : Unshared w.store.data :=
  fun k _ _ m' found found' same => (exclusive.records _ m' found').records k _ found same

theorem Exclusive.fewer {fresh' : List Bytes} (exclusive : w.Exclusive fresh) (sub : fresh' ⊆ fresh) :
    w.Exclusive fresh' where
  records := exclusive.records
  writes := exclusive.writes
  freshRecords k m found mem := exclusive.freshRecords k m found (sub mem)
  freshWrites c write found mem := exclusive.freshWrites c write found (sub mem)
  valid := exclusive.valid

/-- An id that nothing uses belongs to any path. -/
theorem Exclusive.owns_fresh (exclusive : w.Exclusive fresh) (mem : x ∈ fresh) : w.Owns k x where
  records k' m found same := absurd (same ▸ mem) (exclusive.freshRecords k' m found)
  writes c write found same := absurd (same ▸ mem) (exclusive.freshWrites c write found)

/-- Each record comes from one of the same object at the same path, and each session from one for
the same object and path. -/
structure Within (w w' : MetadataWorker) : Prop where
  records : ∀ k m, w'.store.data.lookup k = some m → ∃ m₀, w.store.data.lookup k = some m₀ ∧ m.objId = m₀.objId
  writes : ∀ context write, w'.findWrite context = some write →
    ∃ write₀, w.findWrite context = some write₀ ∧ write.path = write₀.path ∧ write.objectId = write₀.objectId

theorem Exclusive.within (exclusive : w.Exclusive fresh) (within : Within w w') : w'.Exclusive fresh := by
  have owns : ∀ {k x}, w.Owns k x → w'.Owns k x := fun h =>
    { records := fun k' m found same => by
        obtain ⟨m₀, found₀, objId⟩ := within.records k' m found
        exact h.records k' m₀ found₀ (objId ▸ same)
      writes := fun c write found same => by
        obtain ⟨write₀, found₀, path, objectId⟩ := within.writes c write found
        rw [path]
        exact h.writes c write₀ found₀ (objectId ▸ same) }
  refine ⟨fun k m found => ?_, fun c write found => ?_, fun k m found => ?_, fun c write found => ?_,
    fun c write found => ?_⟩
  · obtain ⟨m₀, found₀, objId⟩ := within.records k m found
    exact objId ▸ owns (exclusive.records k m₀ found₀)
  · obtain ⟨write₀, found₀, path, objectId⟩ := within.writes c write found
    exact path ▸ objectId ▸ owns (exclusive.writes c write₀ found₀)
  · obtain ⟨m₀, found₀, objId⟩ := within.records k m found
    exact objId ▸ exclusive.freshRecords k m₀ found₀
  · obtain ⟨write₀, found₀, -, objectId⟩ := within.writes c write found
    exact objectId ▸ exclusive.freshWrites c write₀ found₀
  · obtain ⟨write₀, found₀, path, -⟩ := within.writes c write found
    exact path ▸ exclusive.valid c write₀ found₀

/-- A record is put at the path its object belongs to. -/
theorem Exclusive.insert {m : FileMetadata} (exclusive : w.Exclusive fresh) (owns : w.Owns k m.objId)
    (unused : m.objId ∉ fresh) (data : w'.store.data = w.store.data.insert k m)
    (writes : w'.pendingWrites = w.pendingWrites) : w'.Exclusive fresh := by
  have same : ∀ c, w'.findWrite c = w.findWrite c := fun c => by rw [findWrite, writes, findWrite]
  have kept : ∀ {k' x}, w.Owns k' x → (x = m.objId → k = k') → w'.Owns k' x := fun h alone =>
    { records := fun k₁ m₁ found objId => by
        rw [data, Assoc.lookup_insert_ite] at found
        split at found
        · rename_i here
          cases found
          rw [here, alone objId.symm]
        · exact h.records k₁ m₁ found objId
      writes := fun c write found objId => h.writes c write (same c ▸ found) objId }
  refine ⟨fun k' m' found => ?_, fun c write found => ?_, fun k' m' found => ?_, fun c write found => ?_,
    fun c write found => ?_⟩
  · rw [data, Assoc.lookup_insert_ite] at found
    split at found
    · rename_i here
      cases found
      exact here ▸ kept owns fun _ => rfl
    · exact kept (exclusive.records k' m' found) fun objId => (owns.records k' m' found objId).symm
  · rw [same] at found
    exact kept (exclusive.writes c write found) fun objId => (owns.writes c write found objId).symm
  · rw [data, Assoc.lookup_insert_ite] at found
    split at found
    · cases found
      exact unused
    · exact exclusive.freshRecords k' m' found
  · exact exclusive.freshWrites c write (same c ▸ found)
  · exact exclusive.valid c write (same c ▸ found)

/-- A session is opened for the path its object belongs to. -/
theorem Exclusive.put {context : RequestContext} (exclusive : w.Exclusive fresh) (write : PendingWrite)
    (owns : w.Owns (key write.path) write.objectId) (unused : write.objectId ∉ fresh)
    (valid : validFilename write.path = true) (data : w'.store.data = w.store.data)
    (writes : w'.pendingWrites = (w.putWrite context write).pendingWrites) : w'.Exclusive fresh := by
  have find : ∀ c, w'.findWrite c = if c.sender.id = context.sender.id ∧ c.requestId = context.requestId then
      some write else w.findWrite c := fun c => by
    rw [findWrite, writes, putWrite, Nested.find_put]
    rfl
  have kept : ∀ {k' x}, w.Owns k' x → (write.objectId = x → key write.path = k') → w'.Owns k' x := fun h alone =>
    { records := fun k₁ m₁ found objId => h.records k₁ m₁ (data ▸ found) objId
      writes := fun c write₁ found objId => by
        rw [find] at found
        split at found
        · cases found
          exact alone objId
        · exact h.writes c write₁ found objId }
  refine ⟨fun k' m' found => ?_, fun c write₁ found => ?_, fun k' m' found => ?_, fun c write₁ found => ?_,
    fun c write₁ found => ?_⟩
  · rw [data] at found
    exact kept (exclusive.records k' m' found) fun objId => (owns.records k' m' found objId.symm).symm
  · rw [find] at found
    split at found
    · cases found
      exact kept owns fun _ => rfl
    · exact kept (exclusive.writes c write₁ found) fun objId => (owns.writes c write₁ found objId.symm).symm
  · exact exclusive.freshRecords k' m' (data ▸ found)
  · rw [find] at found
    split at found
    · cases found
      exact unused
    · exact exclusive.freshWrites c write₁ found
  · rw [find] at found
    split at found
    · cases found
      exact valid
    · exact exclusive.valid c write₁ found

/-! ## One request -/

/-- The ids that the generator yields for a request. -/
def drawn (env : Env) : ClientEvent → List Bytes
  | .createFile _ => [env.objectId]
  | .writeFile _ => [env.objectId]
  | _ => []

/-- A rename leaves every record in place whose object a session is writing. -/
def sparesWritten (w : MetadataWorker) : ClientEvent → Prop
  | .rename req => ∀ context write k m, w.findWrite context = some write → w.store.data.lookup k = some m →
      m.objId = write.objectId → (w.store.rename req.oldPath req.newPath).2.data.lookup k = some m
  | _ => True

variable {env : Env} {rest : List Bytes}

theorem findWrite_discardWrite {context c : RequestContext} {write : PendingWrite}
    (writes : w'.pendingWrites = (w.discardWrite context).pendingWrites) (found : w'.findWrite c = some write) :
    w.findWrite c = some write := by
  rw [findWrite, writes, discardWrite, Nested.find_discard] at found
  split at found
  · cases found
  · exact found

theorem Within.of_same (data : w'.store.data = w.store.data) (writes : w'.pendingWrites = w.pendingWrites) :
    Within w w' where
  records _ m found := ⟨m, data ▸ found, rfl⟩
  writes _ write found := ⟨write, by rw [findWrite, ← writes]; exact found, rfl, rfl⟩

theorem Within.of_discard {context : RequestContext} (data : w'.store.data = w.store.data)
    (writes : w'.pendingWrites = (w.discardWrite context).pendingWrites) : Within w w' where
  records _ m found := ⟨m, data ▸ found, rfl⟩
  writes _ write found := ⟨write, findWrite_discardWrite writes found, rfl, rfl⟩

/-- The record a `WriteFile` works with has its object at the request's path. -/
theorem Exclusive.owns_target {path : Bytes} {m : FileMetadata} (exclusive : w.Exclusive (env.objectId :: rest))
    (once : env.objectId ∉ rest) (target : w.target env path m) :
    w.Owns (key path) m.objId ∧ m.objId ∉ rest := by
  obtain ⟨-, found | ⟨-, rfl⟩⟩ := target
  · exact ⟨exclusive.records _ m found, fun mem => exclusive.freshRecords _ m found (List.mem_cons_of_mem _ mem)⟩
  · exact ⟨exclusive.owns_fresh List.mem_cons_self, once⟩

theorem WriteFileStep.exclusive {req : WriteFileRequest} {status : ClientStatus}
    (step : WriteFileStep env req w w' status) (exclusive : w.Exclusive (env.objectId :: rest))
    (once : env.objectId ∉ rest) : w'.Exclusive rest := by
  have before : w.Exclusive rest := exclusive.fewer (List.subset_cons_self _ _)
  cases step with
  | refused _ bad data writes => exact before.within (.of_same data writes)
  | emptied m m' target count objId replicas size data writes =>
      obtain ⟨owns, unused⟩ := exclusive.owns_target once target
      exact before.insert (objId ▸ owns) (objId ▸ unused) data writes
  | opened m target count sized bound data free writes =>
      obtain ⟨owns, unused⟩ := exclusive.owns_target once target
      exact before.put _ owns unused target.1 data writes
  | bound _ m m' target count sized unbound selected objId size data writes =>
      obtain ⟨owns, unused⟩ := exclusive.owns_target once target
      -- the record first, then the session beside it
      let w₁ : MetadataWorker := { w' with pendingWrites := w.pendingWrites }
      have inserted : w₁.Exclusive rest := before.insert (objId ▸ owns) (objId ▸ unused) data rfl
      rcases writes with ⟨-, writes⟩ | ⟨-, -, writes⟩
      · exact inserted.within (.of_same rfl writes)
      · have owns₁ : w₁.Owns (key req.path) m.objId :=
          objId ▸ inserted.records (key req.path) m' (by rw [data, Assoc.lookup_insert_ite, if_pos rfl])
        exact inserted.put _ owns₁ unused target.1 rfl writes

theorem WriteChunkStep.exclusive {req : WriteChunkRequest} {status : ClientStatus}
    (step : WriteChunkStep req w w' status) (exclusive : w.Exclusive rest) : w'.Exclusive rest := by
  cases step with
  | unknown none same => exact exclusive.within (.of_same (congrArg MetadataStore.data same.store) same.pendingWrites)
  | rejected write found bad data writes => exact exclusive.within (.of_discard data writes)
  | failed write found due data writes => exact exclusive.within (.of_discard data writes)
  | more write found due part data writes =>
      exact exclusive.put { write with nextChunk := write.nextChunk + 1 } (exclusive.writes _ write found)
        (exclusive.freshWrites _ write found) (exclusive.valid _ write found) data writes
  | finished _ write found due last data writes =>
      rcases data with ⟨-, data⟩ | ⟨-, -, m, objId, -, -, data⟩
      · exact exclusive.within (.of_discard data writes)
      · let w₁ : MetadataWorker := { w' with pendingWrites := w.pendingWrites }
        have inserted : w₁.Exclusive rest := exclusive.insert (objId ▸ exclusive.writes _ write found)
          (objId ▸ exclusive.freshWrites _ write found) data rfl
        exact inserted.within (.of_discard rfl writes)

theorem Exclusive.rename {req : RenameRequest} (exclusive : w.Exclusive rest) (spares : w.sparesWritten (.rename req))
    (data : w'.store.data = (w.store.rename req.oldPath req.newPath).2.data)
    (writes : w'.pendingWrites = w.pendingWrites) : w'.Exclusive rest := by
  rcases renamed : w.store.rename req.oldPath req.newPath with ⟨result, store⟩
  simp only [sparesWritten, renamed] at data spares
  rcases rename_data renamed with same | ⟨entries, r, -, moved⟩
  · exact exclusive.within (.of_same (data.trans same) writes)
  rw [← data] at moved
  have find : ∀ c, w'.findWrite c = w.findWrite c := fun c => by rw [findWrite, writes, findWrite]
  have unshared := moveEntries_unshared moved exclusive.unshared
  -- the record of a written object was spared, so it is the only one that can carry the object
  have owns : ∀ c write k m, w.findWrite c = some write → w'.store.data.lookup k = some m →
      m.objId = write.objectId → k = key write.path := fun c write k m found here same => by
    obtain ⟨k₀, m₀, found₀, object⟩ := moveEntries_origin moved here
    have same₀ : m₀.objId = write.objectId := object.objId.symm.trans same
    have stays := spares c write k₀ m₀ found found₀ same₀
    rw [← data] at stays
    rw [unshared k k₀ m m₀ here stays (same.trans same₀.symm)]
    exact (exclusive.writes c write found).records k₀ m₀ found₀ same₀
  refine ⟨fun k m here => ⟨fun k' m' here' same => unshared k' k m' m here' here same, fun c write found same => ?_⟩,
    fun c write found => ⟨fun k m here same => ?_, fun c' write' found' same => ?_⟩, fun k m here => ?_,
    fun c write found => ?_, fun c write found => ?_⟩
  · rw [find] at found
    exact (owns c write k m found here same.symm).symm
  · rw [find] at found
    exact owns c write k m found here same
  · rw [find] at found found'
    exact (exclusive.writes c write found).writes c' write' found' same
  · obtain ⟨k₀, m₀, found₀, object⟩ := moveEntries_origin moved here
    rw [object.objId]
    exact exclusive.freshRecords k₀ m₀ found₀
  · exact exclusive.freshWrites c write (find c ▸ found)
  · exact exclusive.valid c write (find c ▸ found)

/-- One request keeps objects with their paths. -/
theorem TableStep.exclusive {event : ClientEvent} (step : TableStep env w w' event)
    (exclusive : w.Exclusive (drawn env event ++ rest)) (once : (drawn env event ++ rest).Nodup)
    (spares : w.sparesWritten event) : w'.Exclusive rest := by
  have before : w.Exclusive rest := exclusive.fewer (List.subset_append_right _ _)
  cases step with
  | still _ data writes => exact before.within (.of_same data writes)
  | created req m valid free objId data writes =>
      rw [drawn, List.singleton_append] at exclusive once
      rw [List.nodup_cons] at once
      exact before.insert (exclusive.owns_fresh (objId ▸ List.mem_cons_self)) (objId ▸ once.1) data writes
  | writeFile req status step =>
      rw [drawn, List.singleton_append] at exclusive once
      exact step.exclusive exclusive (List.nodup_cons.1 once).1
  | writeChunk req status step => exact step.exclusive before
  | removed req data writes =>
      refine before.within ⟨fun k m found => ⟨m, ?_, rfl⟩, fun c write found => ⟨write, ?_, rfl, rfl⟩⟩
      · rw [data, Assoc.lookup_erase_ite] at found
        split at found
        · cases found
        · exact found
      · rw [findWrite, ← writes]
        exact found
  | renamed req data writes => exact before.rename spares data writes

end MetadataWorker

end Dfs
