import Dfs.Metadata.Answers
import Dfs.Metadata.Renaming

/-!
# A file that is left alone

Which requests touch the record of one file and its object. All the others, those that are refused and those
of uploads that have not come to their last chunk among them, leave both as they are, and a rename carries
them along.
-/

namespace Dfs

open Lib

namespace MetadataStore

open FileTree (relocate relocate_under relocate_outside)

variable {s s' : MetadataStore} {f g : Bytes} {m : FileMetadata} {k : FilePath}

/-- A rename that succeeds carries every record to its new key, and there are no others. -/
theorem rename_carries (filed : Filed s.disk.tree s.data) (h : rename f g s = (.ok (), s')) :
    (∀ k m, s.data.lookup k = some m → ∃ m', s'.data.lookup (relocate (key f) (key g) k) = some m' ∧ m.SameObject m') ∧
      ∀ k' m', s'.data.lookup k' = some m' →
        ∃ k m, s.data.lookup k = some m ∧ relocate (key f) (key g) k = k' ∧ m.SameObject m' := by
  rcases rename_cases filed h with ⟨data, -, -, same⟩ | ⟨d, entries, tree, -, -, -, -, free, covers, -, run⟩
  · rw [← same rfl, data]
    exact ⟨fun k m found => ⟨m, by rwa [relocate_self], rfl, rfl, rfl⟩,
      fun k' m' found => ⟨k', m', found, relocate_self _ _, rfl, rfl, rfl⟩⟩
  have filed' : Filed d.tree s.data := tree ▸ filed
  have empty := filed'.none_below free
  obtain ⟨data', moved, where_⟩ := covers.moved empty
  unfold renameEntries at run
  split at run
  · cases run
  split at run
  · cases run
  dsimp only at moved run
  rw [moved] at run
  cases run
  refine ⟨fun k m found => ?_, fun k' m' found => ?_⟩
  · by_cases below : key f <+: k
    · obtain ⟨r, rfl⟩ := below
      obtain ⟨e, -, -, there⟩ := where_.under r m found
      refine ⟨{ m with path := e.newPath }, ?_, rfl, rfl, rfl⟩
      rw [relocate_under]
      exact there
    · have out : ¬ key g <+: k := by
        rintro ⟨r, rfl⟩
        rw [empty r] at found
        cases found
      exact ⟨m, by rw [relocate_outside below]; exact (where_.others k out).trans (by rw [if_neg below, found]), rfl, rfl, rfl⟩
  · by_cases target : key g <+: k'
    · obtain ⟨r, rfl⟩ := target
      cases source : s.data.lookup (key f ++ r) with
      | none => cases (where_.missing r source).symm.trans found
      | some m =>
          obtain ⟨e, -, -, there⟩ := where_.under r m source
          cases there.symm.trans found
          exact ⟨_, m, source, relocate_under _ _ r, rfl, rfl, rfl⟩
    · have kept := (where_.others k' target).symm.trans found
      split at kept
      · cases kept
      · rename_i below
        exact ⟨k', m', kept, relocate_outside below, rfl, rfl, rfl⟩

end MetadataStore

namespace MetadataWorker

open MetadataStore
open FileTree (relocate relocate_outside)

variable {w w' : MetadataWorker} {env : Env} {event : ClientEvent} {k : FilePath} {x : Bytes} {n : Nat}
  {replicas : NodeId × NodeId}

/-- The request neither completes an upload to the file at `k`, which has the object `x`, nor empties or removes it,
and it moves the file only while no session writes the object. Generated ids are new. -/
def Leaves (w : MetadataWorker) (k : FilePath) (x : Bytes) (env : Env) : ClientEvent → Prop
  | .createFile _ => env.objectId ≠ x
  | .writeFile req => env.objectId ≠ x ∧ (key req.path = k → req.chunkCount ≠ 0)
  | .writeChunk req => ∀ write, w.findWrite req.context = some write → key write.path = k → write.nextChunk + 1 ≠ write.chunkCount
  | .remove req => key req.path ≠ k
  | .rename req => key req.oldPath <+: k → ∀ context write, w.findWrite context = some write → write.objectId ≠ x
  | _ => True

instance (w : MetadataWorker) (k : FilePath) (x : Bytes) (env : Env) (event : ClientEvent) : Decidable (w.Leaves k x env event) :=
  match event with
  | .createFile _ => inferInstanceAs (Decidable (_ ≠ _))
  | .writeFile _ => inferInstanceAs (Decidable (_ ∧ _))
  | .writeChunk req => decidable_of_iff ((w.findWrite req.context).all fun write =>
      decide (key write.path = k → write.nextChunk + 1 ≠ write.chunkCount)) (by
      rw [Leaves]
      cases w.findWrite req.context with
      | none => simp
      | some write => simp only [Option.all_some, decide_eq_true_eq, Option.some.injEq, forall_eq'])
  | .remove _ => inferInstanceAs (Decidable (_ ≠ _))
  | .rename req => decidable_of_iff (key req.oldPath <+: k → ¬ Nested.any w.pendingWrites (fun write => write.objectId = x)) (by
      rw [Nested.any_iff]
      refine imp_congr_right fun _ => ⟨fun none context write found same => none ⟨_, _, write, found, by simpa using same⟩,
        fun others => ?_⟩
      rintro ⟨client, id, write, found, same⟩
      exact others ⟨id, ⟨client, .client⟩⟩ write found (by simpa using same))
  | .readFile _ | .readChunk _ | .list _ | .makeDir _ | .stat _ => .isTrue trivial

/-- Where the file at `k` is after the request. -/
def carried (w : MetadataWorker) (k : FilePath) : ClientEvent → FilePath
  | .rename req =>
      match (w.store.rename req.oldPath req.newPath).1 with
      | .ok _ => relocate (key req.oldPath) (key req.newPath) k
      | .error _ => k
  | _ => k

/-- The file at `k` has `n` bytes and the object `x`, which no other file has. -/
structure Custody (w : MetadataWorker) (k : FilePath) (x : Bytes) (n : Nat) (replicas : NodeId × NodeId) : Prop where
  record : ∃ m, w.store.data.lookup k = some m ∧ m.objId = x ∧ m.size.toNat = n ∧ (n ≠ 0 → m.replicaLocations = replicas)
  bound : n ≠ 0 → replicas ≠ ([], [])
  owns : w.Owns k x

theorem Custody.of_same (custody : w.Custody k x n replicas) (data : w'.store.data = w.store.data)
    (writes : w'.pendingWrites = w.pendingWrites) : w'.Custody k x n replicas where
  record := data ▸ custody.record
  bound := custody.bound
  owns := ⟨fun k' m found => custody.owns.records k' m (data ▸ found), fun context write found =>
    custody.owns.writes context write (by rw [findWrite, ← writes]; exact found)⟩

theorem Custody.of_discard {context : RequestContext} (custody : w.Custody k x n replicas)
    (data : w'.store.data = w.store.data) (writes : w'.pendingWrites = (w.discardWrite context).pendingWrites) :
    w'.Custody k x n replicas where
  record := data ▸ custody.record
  bound := custody.bound
  owns := ⟨fun k' m found => custody.owns.records k' m (data ▸ found), fun c write found =>
    custody.owns.writes c write (findWrite_discardWrite writes found)⟩

/-- A session is opened or goes on that has the object only if it is for the file. -/
theorem Custody.put {context : RequestContext} {write : PendingWrite} (custody : w.Custody k x n replicas)
    (own : write.objectId = x → key write.path = k) (data : w'.store.data = w.store.data)
    (writes : w'.pendingWrites = (w.putWrite context write).pendingWrites) : w'.Custody k x n replicas where
  record := data ▸ custody.record
  bound := custody.bound
  owns := by
    refine ⟨fun k' m found => custody.owns.records k' m (data ▸ found), fun c write' found same => ?_⟩
    rw [findWrite, writes, putWrite, Nested.find_put] at found
    split at found
    · cases found
      exact own same
    · exact custody.owns.writes c write' found same

/-- The record of another file is put. -/
theorem Custody.insert {k' : FilePath} {m : FileMetadata} (custody : w.Custody k x n replicas) (other : k' ≠ k)
    (apart : m.objId ≠ x) (data : w'.store.data = w.store.data.insert k' m) (writes : w'.pendingWrites = w.pendingWrites) :
    w'.Custody k x n replicas where
  record := by
    rw [data, Assoc.lookup_insert_ite, if_neg other.symm]
    exact custody.record
  bound := custody.bound
  owns := by
    refine ⟨fun k₁ m₁ found same => ?_, fun context write found =>
      custody.owns.writes context write (by rw [findWrite, ← writes]; exact found)⟩
    rw [data, Assoc.lookup_insert_ite] at found
    split at found
    · cases found
      exact absurd same apart
    · exact custody.owns.records k₁ m₁ found same

/-- What a `WriteFile` works with has the object only if it is for the file. -/
theorem Custody.target {path : Bytes} {m : FileMetadata} (custody : w.Custody k x n replicas) (new : env.objectId ≠ x)
    (target : w.target env path m) (same : m.objId = x) : key path = k := by
  obtain ⟨-, found | ⟨-, rfl⟩⟩ := target
  · exact custody.owns.records _ m found same
  · exact absurd same new

theorem WriteFileStep.custody {req : WriteFileRequest} {status : ClientStatus} (step : WriteFileStep env req w w' status)
    (custody : w.Custody k x n replicas) (new : env.objectId ≠ x) (filled : key req.path = k → req.chunkCount ≠ 0) :
    w'.Custody k x n replicas := by
  cases step with
  | refused _ bad data writes => exact custody.of_same data writes
  | emptied m m' target count objId replicas size data writes =>
      have other : key req.path ≠ k := fun here => filled here count
      exact custody.insert other (fun same => other (custody.target new target (objId.symm.trans same))) data writes
  | opened m target count sized bound data free writes => exact custody.put (custody.target new target) data writes
  | bound _ m m' target count sized unbound selected objId size data writes =>
      -- the record first, then the session beside it
      let w₁ : MetadataWorker := { w' with pendingWrites := w.pendingWrites }
      have inserted : w₁.Custody k x n replicas := by
        by_cases here : key req.path = k
        · obtain ⟨m₀, found, object, length, located⟩ := custody.record
          obtain ⟨-, found' | ⟨none, -⟩⟩ := target
          · rw [here, found] at found'
            cases found'
            have empty : n = 0 := by
              by_contra some
              exact custody.bound some ((located some).symm.trans unbound)
            refine ⟨⟨m', ?_, objId.trans object, size ▸ length, fun some => absurd empty some⟩, custody.bound, ?_,
              custody.owns.writes⟩
            · rw [data, here, Assoc.lookup_insert_ite, if_pos rfl]
            · intro k₁ m₁ found₁ same
              rw [data, here, Assoc.lookup_insert_ite] at found₁
              split at found₁
              · assumption
              · exact custody.owns.records k₁ m₁ found₁ same
          · rw [here, found] at none
            cases none
        · exact custody.insert here (fun same => here (custody.target new target (objId.symm.trans same))) data rfl
      rcases writes with ⟨-, writes⟩ | ⟨-, -, writes⟩
      · exact inserted.of_same rfl writes
      · exact inserted.put (custody.target new target) rfl writes

theorem WriteChunkStep.custody {req : WriteChunkRequest} {status : ClientStatus} (step : WriteChunkStep req w w' status)
    (custody : w.Custody k x n replicas)
    (unfinished : ∀ write, w.findWrite req.context = some write → key write.path = k → write.nextChunk + 1 ≠ write.chunkCount) :
    w'.Custody k x n replicas := by
  cases step with
  | unknown none same => exact custody.of_same (congrArg MetadataStore.data same.store) same.pendingWrites
  | rejected write found bad data writes => exact custody.of_discard data writes
  | failed write found due data writes => exact custody.of_discard data writes
  | more write found due part data writes =>
      let write' : PendingWrite := { write with nextChunk := write.nextChunk + 1 }
      have own : write'.objectId = x → key write'.path = k := custody.owns.writes _ write found
      exact custody.put own data writes
  | finished _ write found due last data writes =>
      rcases data with ⟨-, data⟩ | ⟨-, -, m, objId, -, -, data⟩
      · exact custody.of_discard data writes
      · have other : key write.path ≠ k := fun here => unfinished write found here last
        let w₁ : MetadataWorker := { w' with pendingWrites := w.pendingWrites }
        have inserted : w₁.Custody k x n replicas :=
          custody.insert other (fun same => other (custody.owns.writes _ write found (objId.symm.trans same))) data rfl
        exact inserted.of_discard rfl writes

/-- A rename carries the file along, or leaves it where it is. -/
theorem Custody.rename {req : RenameRequest} (custody : w.Custody k x n replicas) (filed : Filed w.store.disk.tree w.store.data)
    (unwritten : key req.oldPath <+: k → ∀ context write, w.findWrite context = some write → write.objectId ≠ x)
    (data : w'.store.data = (w.store.rename req.oldPath req.newPath).2.data) (writes : w'.pendingWrites = w.pendingWrites) :
    w'.Custody (w.carried k (.rename req)) x n replicas := by
  rw [carried]
  rcases renamed : w.store.rename req.oldPath req.newPath with ⟨r, store⟩
  rw [renamed] at data
  cases r with
  | error e => exact custody.of_same (data.trans (rename_error filed renamed).1) writes
  | ok _ =>
      obtain ⟨moved, origin⟩ := rename_carries filed renamed
      dsimp only at data ⊢
      rw [← data] at moved origin
      obtain ⟨m, found, object, length, located⟩ := custody.record
      obtain ⟨m', there, same⟩ := moved k m found
      refine ⟨⟨m', there, same.objId.trans object, same.size ▸ length, fun some => same.replicaLocations.trans (located some)⟩,
        custody.bound, fun k₁ m₁ found₁ same₁ => ?_, fun context write found₁ same₁ => ?_⟩
      · obtain ⟨k₀, m₀, found₀, rfl, carried⟩ := origin k₁ m₁ found₁
        rw [custody.owns.records k₀ m₀ found₀ (carried.objId.symm.trans same₁)]
      · rw [findWrite, writes] at found₁
        have out : ¬ key req.oldPath <+: k := fun below => unwritten below context write found₁ same₁
        rw [relocate_outside out]
        exact custody.owns.writes context write found₁ same₁

/-- A request that leaves the file alone keeps its record and its object, also where it moves them. -/
theorem TableStep.custody (step : TableStep env w w' event) (filed : Filed w.store.disk.tree w.store.data)
    (renames : ∀ req, event = .rename req → w'.store.data = (w.store.rename req.oldPath req.newPath).2.data)
    (custody : w.Custody k x n replicas) (leaves : w.Leaves k x env event) : w'.Custody (w.carried k event) x n replicas := by
  cases step with
  | still _ data writes =>
      cases event with
      | rename req => exact custody.rename filed leaves (renames req rfl) writes
      | _ => exact custody.of_same data writes
  | created req m valid free objId data writes =>
      obtain ⟨m₀, found, -⟩ := custody.record
      refine custody.insert (fun here => ?_) (objId ▸ leaves) data writes
      rw [← here, free] at found
      cases found
  | writeFile req status step => exact step.custody custody leaves.1 leaves.2
  | writeChunk req status step => exact step.custody custody leaves
  | removed req data writes =>
      obtain ⟨m, found, rest⟩ := custody.record
      refine ⟨⟨m, ?_, rest⟩, custody.bound, fun k' m' found' => ?_, fun context write found' =>
        custody.owns.writes context write (by rw [findWrite, ← writes]; exact found')⟩
      · rw [data, Assoc.lookup_erase_ite, if_neg fun here => leaves here.symm]
        exact found
      · rw [data, Assoc.lookup_erase_ite] at found'
        split at found'
        · cases found'
        · exact custody.owns.records k' m' found'
  | renamed req data writes => exact custody.rename filed leaves data writes

end MetadataWorker

namespace MetadataState

open MetadataStore MetadataWorker

variable {ν : Type} [Network ν] {s s' : MetadataState ν} {env : Env} {event : ClientEvent} {k : FilePath} {x : Bytes} {n : Nat}
  {replicas : NodeId × NodeId}

theorem handle_custody (filed : Filed s.worker.store.disk.tree s.worker.store.data) (custody : s.worker.Custody k x n replicas)
    (leaves : (s.worker.withOutcomes env.outcomes).Leaves k x env event) (h : s.handle env event = (.ok (), s')) :
    s'.worker.Custody ((s.worker.withOutcomes env.outcomes).carried k event) x n replicas := by
  have custody' : (s.worker.withOutcomes env.outcomes).Custody k x n replicas := custody.of_same rfl rfl
  refine (handle_step h).custody filed (fun req same => ?_) custody' leaves
  subst same
  cases h
  rfl

/-! ## Sessions that read -/

/-- The session that a `ReadFile` opens. -/
def readOf (req : ReadFileRequest) (m : FileMetadata) : PendingRead :=
  { path := req.path, objectId := m.objId, fileSize := m.size, chunkCount := (chunksOf m.size).toUInt32, nextChunk := 0,
    replicas := m.replicaLocations }

/-- What a `ReadFile` answers and does. -/
inductive ReadFileStep (req : ReadFileRequest) (s : MetadataState ν) :
    ClientStatus × UInt64 × UInt32 → MetadataState ν → Prop where
  | refused (answer : ClientStatus × UInt64 × UInt32) (bad : answer.1 ≠ .success) : ReadFileStep req s answer s
  | empty (m : FileMetadata) (found : s.worker.store.data.lookup (key req.path) = some m) (none : chunksOf m.size = 0) :
      ReadFileStep req s (.success, m.size, (chunksOf m.size).toUInt32) s
  | opened (m : FileMetadata) (found : s.worker.store.data.lookup (key req.path) = some m) (some : m.size ≠ 0)
      (free : s.worker.findRead req.context = none) :
      ReadFileStep req s (.success, m.size, (chunksOf m.size).toUInt32)
        { s with worker := s.worker.putRead req.context (readOf req m) }

omit [Network ν] in
theorem readFile_does {req : ReadFileRequest} {answer : ClientStatus × UInt64 × UInt32} (h : s.readFile req = (answer, s')) :
    ReadFileStep req s answer s' := by
  unfold readFile at h
  split at h
  · cases h
    exact .refused _ (by simp)
  split at h
  · cases h
    exact .refused _ (getClientStatus_error _)
  rename_i m found
  have there := (getMetadata_ok found).2
  dsimp only at h
  split at h
  · cases h
    exact .refused _ (by simp)
  split at h
  · cases h
    exact .refused _ (by simp)
  split at h
  · cases h
    exact .refused _ (by simp)
  split at h
  · cases h
    exact .refused _ (by simp)
  split at h
  · cases h
    rename_i none
    exact .empty m there none
  rename_i some
  split at h
  · cases h
    exact .refused _ (by simp)
  · rename_i free
    cases h
    exact .opened m there (fun zero => some (by rw [zero]; rfl)) free

/-- What a `ReadChunk` answers and does. -/
inductive ReadChunkStep (req : ReadChunkRequest) (s : MetadataState ν) : ClientStatus × Bytes → MetadataState ν → Prop where
  | refused (answer : ClientStatus × Bytes) (s' : MetadataState ν) (bad : answer.1 ≠ .success)
      (reads : s'.worker.pendingReads = s.worker.pendingReads ∨
        s'.worker.pendingReads = (s.worker.discardRead req.context).pendingReads) : ReadChunkStep req s answer s'
  | fetched (read : PendingRead) (found : s.worker.findRead req.context = some read) (index : req.chunkIndex = read.nextChunk)
      (below : req.chunkIndex < read.chunkCount) (data : Bytes) (s₁ s' : MetadataState ν)
      (fetched : s.fetchChunk req read.objectId (expectedSize read.fileSize req.chunkIndex).toUInt32
        [read.replicas.1, read.replicas.2] = (some data, s₁))
      (reads : s'.worker.pendingReads = (s.worker.discardRead req.context).pendingReads ∨
        s'.worker.pendingReads = (s.worker.putRead req.context { read with nextChunk := read.nextChunk + 1 }).pendingReads) :
      ReadChunkStep req s (.success, data) s'

theorem readChunk_does {req : ReadChunkRequest} {answer : ClientStatus × Bytes} (h : s.readChunk req = (answer, s')) :
    ReadChunkStep req s answer s' := by
  unfold readChunk at h
  split at h
  · cases h
    exact .refused _ _ (by simp) (.inl rfl)
  rename_i read found
  split at h
  · cases h
    exact .refused _ _ (by simp) (.inr rfl)
  rename_i due
  obtain ⟨index, below⟩ := not_or.1 due
  dsimp only at h
  split at h
  · rename_i s₁ fetched
    cases h
    refine .refused _ _ (by simp) (.inr ?_)
    dsimp only [discardRead]
    rw [(fetchChunk_same fetched).pendingReads]
  · rename_i data s₁ fetched
    cases h
    refine .fetched read found (not_not.1 index) (UInt32.not_le.1 below) data s₁ _ fetched ?_
    dsimp only
    split
    · dsimp only [discardRead]
      rw [(fetchChunk_same fetched).pendingReads]
      exact .inl rfl
    · dsimp only [putRead]
      rw [(fetchChunk_same fetched).pendingReads]
      exact .inr rfl

/-- Sessions for the object `x` are about `n` bytes and replicas with `P`. -/
def ReadsOf (x : Bytes) (n : Nat) (P : NodeId × NodeId → Prop) (w : MetadataWorker) : Prop :=
  ∀ context read, w.findRead context = some read → read.objectId = x → read.fileSize.toNat = n ∧ P read.replicas

omit [Network ν] in
theorem onStore_reads {α : Type} {f : MetadataStore → α × MetadataStore} {r : α} (h : s.onStore f = (r, s')) :
    s'.worker.pendingReads = s.worker.pendingReads := by
  cases h
  rfl

/-- A session that reads after a request has been opened by it or reads what it read before. -/
theorem handle_findRead {context : RequestContext} {read : PendingRead} (h : s.handle env event = (.ok (), s'))
    (found : s'.worker.findRead context = some read) :
    (∃ read₀, s.worker.findRead context = some read₀ ∧ read.objectId = read₀.objectId ∧ read.fileSize = read₀.fileSize ∧
      read.replicas = read₀.replicas) ∨
    ∃ req m, event = .readFile req ∧ context.sender.id = req.context.sender.id ∧ context.requestId = req.context.requestId ∧
      s.worker.store.data.lookup (key req.path) = some m ∧ m.size ≠ 0 ∧ read = readOf req m := by
  obtain ⟨status, frame, s₁, handled, -, rfl⟩ := handle_handled h
  change s₁.worker.findRead context = some read at found
  have same : s₁.worker.pendingReads = (s.entered env).worker.pendingReads → s.worker.findRead context = some read := by
    intro same
    rw [findRead, same] at found
    exact found
  have kept : s₁.worker.pendingReads = (s.entered env).worker.pendingReads →
      ∃ read₀, s.worker.findRead context = some read₀ ∧ read.objectId = read₀.objectId ∧ read.fileSize = read₀.fileSize ∧
        read.replicas = read₀.replicas := fun reads => ⟨read, same reads, rfl, rfl, rfl⟩
  have discarded : ∀ {c : RequestContext}, s₁.worker.pendingReads = ((s.entered env).worker.discardRead c).pendingReads →
      ∃ read₀, s.worker.findRead context = some read₀ ∧ read.objectId = read₀.objectId ∧ read.fileSize = read₀.fileSize ∧
        read.replicas = read₀.replicas := fun {c} reads => by
    rw [findRead, reads, discardRead, Nested.find_discard] at found
    split at found
    · cases found
    · exact ⟨read, found, rfl, rfl, rfl⟩
  cases handled with
  | createFile req r _ run => exact .inl (kept (onStore_reads run))
  | writeFile req _ _ run => exact .inl (kept (writeFile_step run).2.1)
  | writeChunk req _ _ run => exact .inl (kept (writeChunk_step run).1)
  | readFile req answer _ run =>
      cases readFile_does run with
      | refused _ bad => exact .inl (kept rfl)
      | empty m there none => exact .inl (kept rfl)
      | opened m there some free =>
          rw [findRead, putRead, Nested.find_put] at found
          split at found
          · rename_i own
            cases found
            exact .inr ⟨req, m, rfl, own.1, own.2, there, some, rfl⟩
          · exact .inl ⟨read, found, rfl, rfl, rfl⟩
  | readChunk req answer _ run =>
      cases readChunk_does run with
      | refused _ _ bad reads => exact .inl (reads.elim kept discarded)
      | fetched read₀ before index below data _ _ fetched reads =>
          refine .inl (reads.elim discarded fun reads => ?_)
          rw [findRead, reads, putRead, Nested.find_put] at found
          split at found
          · rename_i own
            cases found
            refine ⟨read₀, ?_, rfl, rfl, rfl⟩
            rw [findRead, own.1, own.2]
            exact before
          · exact ⟨read, found, rfl, rfl, rfl⟩
  | remove req _ _ run => exact .inl (kept (remove_step run).2.1)
  | list req r _ _ run => exact .inl (kept (onStore_reads run))
  | makeDir req r _ run => exact .inl (kept (onStore_reads run))
  | rename req r _ run => exact .inl (kept (onStore_reads run))
  | stat req _ _ run =>
      rcases run with rfl | ⟨r, run⟩
      · exact .inl (kept rfl)
      · exact .inl (kept (onStore_reads run))

/-- Sessions that are opened read what the record says. -/
theorem handle_readsOf {P : NodeId × NodeId → Prop} (reads : ReadsOf x n P s.worker)
    (custody : s.worker.Custody k x n replicas) (holds : n ≠ 0 → P replicas) (h : s.handle env event = (.ok (), s')) :
    ReadsOf x n P s'.worker := by
  intro context read found same
  rcases handle_findRead h found with ⟨read₀, before, object, size, nodes⟩ | ⟨req, m, -, -, -, there, some, rfl⟩
  · rw [size, nodes]
    exact reads context read₀ before (object ▸ same)
  · obtain ⟨m₀, found₀, object, length, located⟩ := custody.record
    cases custody.owns.records _ m there same
    cases there.symm.trans found₀
    have filled : n ≠ 0 := fun zero => some (UInt64.toNat_inj.1 (length.trans zero))
    refine ⟨length, ?_⟩
    change P m.replicaLocations
    rw [located filled]
    exact holds filled

end MetadataState

end Dfs
