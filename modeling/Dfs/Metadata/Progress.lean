import Dfs.Metadata.Responses

/-!
# How far a session is

What the response to a request says about the session of its client and id.
-/

namespace Dfs

open Lib

namespace MetadataWorker

variable {w w' : MetadataWorker} {context : RequestContext}

/-- The next chunk of the write session, and the number of its chunks. -/
def writing (w : MetadataWorker) (context : RequestContext) : Option (UInt32 × UInt32) :=
  (w.findWrite context).map fun write => (write.nextChunk, write.chunkCount)

/-- The next chunk of the read session, and the number of its chunks. -/
def reading (w : MetadataWorker) (context : RequestContext) : Option (UInt32 × UInt32) :=
  (w.findRead context).map fun read => (read.nextChunk, read.chunkCount)

abbrev Sessions := Option (UInt32 × UInt32) × Option (UInt32 × UInt32)

/-- How far the write session and the read session are. -/
def sessions (w : MetadataWorker) (context : RequestContext) : Sessions := (w.writing context, w.reading context)

/-- What is left of a session of `count` chunks, `done` of which have been asked for, after this answer. -/
def progress (status : ClientStatus) (done count : UInt32) : Option (UInt32 × UInt32) :=
  if status = .success ∧ done ≠ count then some (done, count) else none

theorem progress_failed {status : ClientStatus} {done count : UInt32} (bad : status ≠ .success) :
    progress status done count = none := if_neg fun both => bad both.1

theorem progress_some {status : ClientStatus} {done count done' count' : UInt32}
    (left : progress status done count = some (done', count')) : done' = done ∧ count' = count ∧ done ≠ count := by
  rw [progress] at left
  split at left
  · rename_i both
    cases left
    exact ⟨rfl, rfl, both.2⟩
  · cases left

theorem writing_same (writes : w'.pendingWrites = w.pendingWrites) : w'.writing context = w.writing context := by
  rw [writing, findWrite, writes]
  rfl

theorem reading_same (reads : w'.pendingReads = w.pendingReads) : w'.reading context = w.reading context := by
  rw [reading, findRead, reads]
  rfl

theorem writing_put {write : PendingWrite} (writes : w'.pendingWrites = (w.putWrite context write).pendingWrites) :
    w'.writing context = some (write.nextChunk, write.chunkCount) := by
  rw [writing, findWrite, writes, putWrite, Nested.find_put, if_pos ⟨rfl, rfl⟩]
  rfl

theorem writing_discard (writes : w'.pendingWrites = (w.discardWrite context).pendingWrites) :
    w'.writing context = none := by
  rw [writing, findWrite, writes, discardWrite, Nested.find_discard, if_pos ⟨rfl, rfl⟩]
  rfl

theorem reading_put {read : PendingRead} (reads : w'.pendingReads = (w.putRead context read).pendingReads) :
    w'.reading context = some (read.nextChunk, read.chunkCount) := by
  rw [reading, findRead, reads, putRead, Nested.find_put, if_pos ⟨rfl, rfl⟩]
  rfl

theorem reading_discard (reads : w'.pendingReads = (w.discardRead context).pendingReads) :
    w'.reading context = none := by
  rw [reading, findRead, reads, discardRead, Nested.find_discard, if_pos ⟨rfl, rfl⟩]
  rfl

end MetadataWorker

namespace MetadataState

open MetadataWorker

variable {ν : Type} [Network ν] {s s' : MetadataState ν} {env : Env} {done count : UInt32}

omit [Network ν] in
theorem writeFile_progress {req : WriteFileRequest} {status : ClientStatus} (free : s.worker.writing req.context = none)
    (h : s.writeFile env req = (status, s')) :
    s'.worker.writing req.context = progress status 0 req.chunkCount := by
  cases (writeFile_step h).2.2 with
  | refused _ bad data writes => rw [writing_same writes, free, progress_failed bad]
  | emptied m m' target zero objId replicas size data writes =>
      rw [writing_same writes, free, zero]
      rfl
  | opened m target some sized bound data free writes =>
      rw [writing_put writes, progress, if_pos ⟨rfl, Ne.symm some⟩]
      rfl
  | bound _ m m' target some sized unbound selected objId size data writes =>
      rcases writes with ⟨bad, writes⟩ | ⟨rfl, -, writes⟩
      · rw [writing_same writes, free, progress_failed bad]
      · rw [writing_put writes, progress, if_pos ⟨rfl, Ne.symm some⟩]
        rfl

theorem writeChunk_progress {req : WriteChunkRequest} {status : ClientStatus}
    (open_ : s.worker.writing req.context = some (done, count)) (h : s.writeChunk env req = (.ok status, s')) :
    s'.worker.writing req.context = progress status (done + 1) count := by
  obtain ⟨write₀, found₀, same⟩ := Option.map_eq_some_iff.1 open_
  obtain ⟨rfl, rfl⟩ := Prod.mk.inj same
  cases (writeChunk_step h).2 with
  | unknown none same => exact absurd (found₀.symm.trans none) nofun
  | rejected write found bad data writes => exact writing_discard writes
  | failed write found due data writes => exact writing_discard writes
  | more write found due part data writes =>
      cases found₀.symm.trans found
      rw [writing_put writes, progress, if_pos ⟨rfl, part⟩]
  | finished _ write found due last data writes =>
      cases found₀.symm.trans found
      rw [writing_discard writes, progress, if_neg fun both => both.2 last]

omit [Network ν] in
theorem readFile_progress {req : ReadFileRequest} {answer : ClientStatus × UInt64 × UInt32}
    (free : s.worker.reading req.context = none) (h : s.readFile req = (answer, s')) :
    s'.worker.reading req.context = progress answer.1 0 answer.2.2 := by
  unfold readFile at h
  split at h
  · cases h
    exact free
  split at h
  · cases h
    rw [free, progress_failed (getClientStatus_error _)]
  rename_i m found
  dsimp only at h
  split at h
  · cases h
    exact free
  split at h
  · cases h
    exact free
  rename_i fits
  split at h
  · cases h
    exact free
  split at h
  · cases h
    exact free
  split at h
  · rename_i none
    cases h
    rw [free, progress, none]
    rfl
  rename_i chunks
  split at h
  · cases h
    exact free
  · cases h
    have some : (0 : UInt32) ≠ (chunksOf m.size).toUInt32 := fun zero => chunks <| by
      have small : (chunksOf m.size).toNat < 2 ^ 32 := by omega
      have same := congrArg UInt32.toNat zero
      rw [UInt64.toNat_toUInt32, Nat.mod_eq_of_lt small] at same
      exact UInt64.toNat_inj.1 same.symm
    rw [progress, if_pos ⟨rfl, some⟩]
    exact reading_put rfl

theorem readChunk_progress {req : ReadChunkRequest} {answer : ClientStatus × Bytes}
    (open_ : s.worker.reading req.context = some (done, count)) (h : s.readChunk req = (answer, s')) :
    s'.worker.reading req.context = progress answer.1 (done + 1) count := by
  by_cases bad : answer.1 ≠ .success
  · rw [reading, readChunk_closed h bad, progress_failed bad]
    rfl
  obtain ⟨read, found, same⟩ := Option.map_eq_some_iff.1 open_
  obtain ⟨rfl, rfl⟩ := Prod.mk.inj same
  unfold readChunk at h
  rw [found] at h
  dsimp only at h
  split at h
  · cases h
    exact absurd nofun bad
  split at h
  · cases h
    exact absurd nofun bad
  · rename_i fetched
    cases h
    have reads := (fetchChunk_same fetched).pendingReads
    dsimp only
    split
    · rename_i last
      rw [reading_discard rfl, progress, if_neg fun both => both.2 last]
    · rename_i part
      rw [reading_put rfl, progress, if_pos ⟨rfl, part⟩]

end MetadataState

end Dfs
