import Dfs.Common.ObjectId
import Dfs.Storage.StorageNode

/-!
# Storage nodes whose calls succeed

With no failing call and no directory among the objects, a chunk that is due is taken and a
committed object can be read.
-/

namespace Dfs

open Lib

/-- The ids that the generator can yield. -/
def Generated (x : Bytes) : Prop := ∃ first second, x = ObjectId.generate first second

theorem Generated.nulFree {x : Bytes} (generated : Generated x) : NulFree x := by
  obtain ⟨first, second, rfl⟩ := generated
  exact ObjectId.not_mem_generate (by simp [ObjectId.Plain])

theorem Generated.length {x : Bytes} (generated : Generated x) : x.length = 36 := by
  obtain ⟨first, second, rfl⟩ := generated
  exact ObjectId.length_generate

/-- A generated id is a single name. -/
theorem Generated.names {x : Bytes} (generated : Generated x) : PosixPath.names x = [x] := by
  have length := generated.length
  have noSeparator : PosixPath.separator ∉ x := by
    obtain ⟨first, second, rfl⟩ := generated
    exact ObjectId.not_mem_generate (by simp [ObjectId.Plain, PosixPath.separator])
  have ne : x ≠ [] := by
    rintro rfl
    cases length
  exact PosixPath.names_name ne noSeparator

namespace StorageWorker

theorem valid_generated {x : Bytes} (generated : Generated x) : validObjectId x = true := by
  have length := generated.length
  have apart : ∀ y : Bytes, y.length < 36 → x ≠ y := fun y short same => by
    rw [same] at length
    omega
  have plain : ∀ b ∈ x, b ≠ PosixPath.separator := by
    obtain ⟨first, second, rfl⟩ := generated
    rintro b mem rfl
    exact ObjectId.not_mem_generate (by simp [ObjectId.Plain, PosixPath.separator]) mem
  have relative : PosixPath.relativeComponents x = [x] := by
    rw [PosixPath.relativeComponents, generated.names, if_neg]
    · rfl
    · rintro ⟨-, last⟩
      exact plain _ (List.mem_of_getLast? last) rfl
  have notAbsolute : PosixPath.isAbsolute x = false := by
    refine decide_eq_false fun head => ?_
    exact plain _ (List.mem_of_head? head) rfl
  have filename : PosixPath.filename x = x := by
    rw [PosixPath.filename, relative]
    rfl
  unfold validObjectId
  rw [if_neg]
  · simp [notAbsolute, PosixPath.hasParentPath, relative, filename, PosixPath.samePath]
  · rintro (same | same | same)
    · exact apart [] (by simp) same
    · exact apart _ (by simp [PosixPath.dotName]) same
    · exact apart _ (by simp [PosixPath.dotDotName]) same

variable {w w' : StorageWorker} {put : PutRequest} {room : Nat}

/-- There are no directories among the objects. -/
def Flat (w : StorageWorker) : Prop := w.disk.tree.Flat

/-! ## The calls of a `PUT` -/

theorem openOutput_healthy {d : Disk} (name : Name) (flat : d.tree.Flat) (healthy : d.Healthy room) (small : room < 2 ^ 64)
    (i : UInt32) : ∃ d', openOutput [name] i d = (.ok (), d') ∧ d'.tree.Flat ∧ d'.Healthy room := by
  unfold openOutput
  split
  · obtain ⟨t, done⟩ := flat.setFile_ok name []
    exact ⟨_, healthy.call small done, flat.setFile done, healthy.drawn⟩
  · obtain ⟨t, done⟩ := flat.openAppend_ok name
    exact ⟨_, healthy.call small done, flat.openAppend done, healthy.drawn⟩

theorem writeOut_healthy {d : Disk} (path : FilePath) (healthy : d.Healthy room) (small : room < 2 ^ 64) (data : Bytes) :
    ∃ d', writeOut path data d = (.ok (), d') ∧ d'.Healthy room := by
  obtain ⟨d₁, wrote, healthy₁⟩ := Disk.Healthy.write (p := path) healthy small data
  refine ⟨d₁.drawn.drawn, ?_, healthy₁.drawn.drawn⟩
  unfold writeOut
  rw [wrote]
  dsimp only
  rw [healthy₁.settle small]
  dsimp only
  rw [healthy₁.drawn.settle small]
  rfl

theorem overwritten_flat {t : FileTree} {p : FilePath} {b : Bytes} (flat : t.Flat) : (Disk.overwritten t p b).Flat := by
  unfold Disk.overwritten
  split
  · rename_i done
    exact flat.setFile done
  · exact flat

theorem writeOut_flat {d d' : Disk} {path : FilePath} {data : Bytes} {r : Except Errc Unit} (flat : d.tree.Flat)
    (h : writeOut path data d = (r, d')) : d'.tree.Flat := by
  obtain ⟨written, d₁, wrote, same, -⟩ := writeOut_calls h
  obtain ⟨n, last, -, -⟩ := Disk.write_tree wrote
  rw [same, last]
  exact overwritten_flat flat

theorem remove_flat {d d' : Disk} {path : FilePath} {r : Except Errc Bool} (flat : d.tree.Flat)
    (h : d.remove path = (r, d')) : d'.tree.Flat := by
  cases r with
  | error e =>
      rw [(Disk.call_error h).1]
      exact flat
  | ok gone => exact FileTree.Flat.remove flat (Disk.call_ok h).1

theorem abortWrite_flat {x : Bytes} {path : FilePath} (flat : w.Flat) : (w.abortWrite x path).Flat := by
  unfold abortWrite
  rcases removed : w.disk.remove path with ⟨r, d⟩
  exact remove_flat flat removed

/-! ## A `PUT` -/

theorem appendChunk_healthy (flat : w.Flat) (healthy : w.disk.Healthy room) (small : room < 2 ^ 64)
    (fits : put.data.length ≤ room) : ∃ w', w.appendChunk put = (.success, w') := by
  obtain ⟨d₁, opened, flat₁, healthy₁⟩ :=
    openOutput_healthy (d := w.disk.drawn) (put.objectId ++ tmpSuffix) flat healthy.drawn small put.chunkIndex
  rw [← tmpPath_eq] at opened
  obtain ⟨d₂, written, healthy₂⟩ := writeOut_healthy (tmpPath put.objectId) healthy₁ small put.data
  have enough := (healthy.outcome small).2
  unfold appendChunk
  rw [healthy.space small]
  dsimp only
  rw [if_neg (by omega), opened]
  dsimp only
  rw [written]
  dsimp only
  split
  · exact ⟨_, rfl⟩
  · have grown := writeOut_ok written (openOutput_ok opened)
    rw [tmpPath_eq] at grown ⊢
    have apart : put.objectId ++ tmpSuffix ≠ put.objectId := by simp [tmpSuffix]
    obtain ⟨t, renamed⟩ := FileTree.Flat.rename_ok (writeOut_flat flat₁ written) apart grown
    have call : d₂.rename [put.objectId ++ tmpSuffix] (finalPath put.objectId) = (.ok (), d₂.drawn.reach t) :=
      healthy₂.call small renamed
    rw [call]
    exact ⟨_, rfl⟩

/-- A chunk that is due is taken. -/
theorem handlePut_healthy (generated : Generated put.objectId) (flat : w.Flat) (healthy : w.disk.Healthy room)
    (small : room < 2 ^ 64) (fits : put.data.length ≤ room)
    (due : put.chunkIndex = 0 ∨ w.nextChunks.lookup put.objectId = some put.chunkIndex) :
    (w.handlePut put).1.status = .success := by
  have wrote : ∃ w', w.writeChunk put = (.success, w') := by
    unfold writeChunk
    rw [if_neg (by simp [valid_generated generated])]
    dsimp only
    split
    · rename_i first
      rw [if_neg (by simp [first])]
      exact appendChunk_healthy flat healthy small fits
    · rename_i later
      rw [if_neg (by simp [due.resolve_left later])]
      exact appendChunk_healthy flat healthy small fits
  obtain ⟨w', wrote⟩ := wrote
  unfold handlePut
  rw [wrote]

theorem appendChunk_flat {status : StorageStatus} (flat : w.Flat) (h : w.appendChunk put = (status, w')) : w'.Flat := by
  unfold appendChunk at h
  dsimp only at h
  split at h
  · rename_i looked
    cases h
    refine abortWrite_flat ?_
    rw [Flat, (Disk.space_tree looked).1]
    exact flat
  rename_i available disk looked
  have flat₀ : disk.tree.Flat := by
    rw [(Disk.space_tree looked).1]
    exact flat
  split at h
  · cases h
    exact abortWrite_flat flat₀
  split at h
  · rename_i opened
    cases h
    refine abortWrite_flat ?_
    unfold openOutput at opened
    split at opened <;> rw [Flat, (Disk.call_error opened).1] <;> exact flat₀
  rename_i disk₁ opened
  have flat₁ : disk₁.tree.Flat := by
    unfold openOutput at opened
    split at opened
    · exact flat₀.setFile (Disk.call_ok opened).1
    · exact flat₀.openAppend (Disk.call_ok opened).1
  split at h
  · rename_i written
    cases h
    exact abortWrite_flat (writeOut_flat flat₁ written)
  rename_i disk₂ written
  have flat₂ := writeOut_flat flat₁ written
  split at h
  · cases h
    exact flat₂
  split at h
  · rename_i renamed
    cases h
    refine abortWrite_flat ?_
    rw [Flat, (Disk.call_error renamed).1]
    exact flat₂
  · rename_i renamed
    cases h
    exact flat₂.rename (tmpPath_ne_finalPath _) (Disk.call_ok renamed).1

theorem handlePut_flat {response : PutResponse} (flat : w.Flat) (h : w.handlePut put = (response, w')) : w'.Flat := by
  unfold handlePut at h
  rcases wrote : w.writeChunk put with ⟨status, w₁⟩
  simp only [wrote, Prod.mk.injEq] at h
  rw [Flat, ← h.2, (availableBytes_same w₁).2]
  unfold writeChunk at wrote
  dsimp only at wrote
  split at wrote
  · cases wrote
    exact flat
  generalize counted : (if put.chunkIndex = 0 then
    { w with nextChunks := w.nextChunks.insert put.objectId 0 } else w) = w₀ at wrote
  have flat₀ : w₀.Flat := by
    rw [← counted]
    split <;> exact flat
  split at wrote
  · cases wrote
    exact abortWrite_flat flat₀
  · exact appendChunk_flat flat₀ wrote

/-! ## A `DELETE` -/

/-- Whatever is left of an object can be removed. -/
theorem handleDelete_healthy {delete : DeleteRequest} (valid : validObjectId delete.objectId = true) (flat : w.Flat)
    (healthy : w.disk.Healthy room) (small : room < 2 ^ 64) : (w.handleDelete delete).1.status = .success := by
  obtain ⟨gone, t, done⟩ := FileTree.Flat.remove_ok flat delete.objectId
  obtain ⟨gone', t', done'⟩ := (FileTree.Flat.remove flat done).remove_ok (delete.objectId ++ tmpSuffix)
  have first : w.disk.remove (finalPath delete.objectId) = (.ok gone, w.disk.drawn.reach t) := healthy.call small done
  have second : (w.disk.drawn.reach t).remove (tmpPath delete.objectId) = (.ok gone', (w.disk.drawn.reach t).drawn.reach t') := by
    have rest : (w.disk.drawn.reach t).Healthy room := healthy.drawn
    rw [tmpPath_eq]
    exact rest.call small done'
  unfold handleDelete
  rw [if_neg (by simp [valid]), first]
  dsimp only
  rw [second]

theorem handleDelete_flat {delete : DeleteRequest} {response : DeleteResponse} (flat : w.Flat)
    (h : w.handleDelete delete = (response, w')) : w'.Flat := by
  unfold handleDelete at h
  split at h
  · cases h
    exact flat
  split at h
  · rename_i removed
    cases h
    exact remove_flat flat removed
  rename_i removed
  split at h
  · rename_i removed'
    cases h
    exact remove_flat (remove_flat flat removed) removed'
  · rename_i removed'
    cases h
    exact remove_flat (remove_flat flat removed) removed'

/-- No job makes a directory. -/
theorem handle_flat (event : StorageEvent) (flat : w.Flat) : (w.handle event).2.Flat := by
  cases event with
  | put put => exact handlePut_flat flat rfl
  | get get =>
      have tree : (w.handleGet get).2.disk.tree = w.disk.tree := (handleGet_step rfl).2.1
      exact (congrArg FileTree.Flat tree).mpr flat
  | delete delete => exact handleDelete_flat flat rfl

/-! ## A `GET` -/

theorem readSlice_healthy {file : Bytes} {get : GetRequest} {d : Disk} (healthy : d.Healthy room) (small : room < 2 ^ 64)
    (inside : get.chunkIndex.toNat * chunkSize ≤ file.length) : (readSlice file get d).1.1 = .success := by
  unfold readSlice
  rw [healthy.settle small]
  dsimp only
  rw [if_neg (by omega), healthy.drawn.settle small]
  dsimp only
  split
  · rfl
  · rw [healthy.drawn.drawn.settle small]

/-- A chunk of a committed object can be read. -/
theorem handleGet_healthy {get : GetRequest} {file : Bytes} (generated : Generated get.objectId)
    (healthy : w.disk.Healthy room) (small : room < 2 ^ 64) (found : w.committed get.objectId = some file)
    (inside : get.chunkIndex.toNat * chunkSize ≤ file.length) (bounded : get.byteCount.toNat ≤ chunkSize) :
    (w.handleGet get).1.status = .success := by
  have read : w.disk.readFile (finalPath get.objectId) = (.ok file, w.disk.drawn) := by
    rw [Disk.readFile, healthy.query small, FileTree.readFile, FileTree.content_eq_some.1 found]
  unfold handleGet
  rw [if_neg, read]
  · dsimp only
    exact readSlice_healthy healthy.drawn small inside
  · rintro (bad | bad)
    · rw [valid_generated generated] at bad
      cases bad
    · omega

end StorageWorker

end Dfs
