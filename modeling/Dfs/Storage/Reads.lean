import Dfs.Storage.Commit

/-!
# What disturbs a committed object, and what is read of it

An upload grows a file beside the committed one, so that only its last chunk, or a `DELETE`,
touches the object. What a `GET` answers comes from the committed file as it is then.
-/

namespace Dfs

open Lib

namespace StorageWorker

variable {w w' : StorageWorker} {x y : Bytes}

/-- The files of another object are not those of an object without dots. -/
theorem SameBut.committed (same : SameBut y w w') (plain : PosixPath.dot ∉ x) (ne : x ≠ y) :
    w'.committed x = w.committed x := by
  refine same.files _ (fun e => ne (List.singleton_injective e)) fun e => plain ?_
  rw [finalPath, tmpPath_eq] at e
  rw [List.singleton_injective e]
  simp [tmpSuffix, PosixPath.dot]

theorem readSlice_within {file : Bytes} {get : GetRequest} {d d' : Disk} {data : Bytes}
    (h : readSlice file get d = ((.success, data), d')) : get.chunkIndex.toNat * chunkSize ≤ file.length := by
  unfold readSlice at h
  split at h
  · cases h
  · split at h
    · cases h
    · omega

theorem slice_eq (file : Bytes) (chunkIndex byteCount : UInt32) :
    slice file chunkIndex byteCount =
      (file.take (min (chunkIndex.toNat * chunkSize + byteCount.toNat) file.length)).drop (chunkIndex.toNat * chunkSize) := by
  rw [slice, List.drop_take, List.take_eq_take_iff, List.length_drop]
  omega

/-- A `GET` that succeeds has found the object, and answers with bytes of it. -/
theorem handleGet_success {get : GetRequest} {response : GetResponse} (h : w.handleGet get = (response, w'))
    (success : response.status = .success) :
    ∃ file, w.committed get.objectId = some file ∧ get.chunkIndex.toNat * chunkSize ≤ file.length ∧
      response.data = slice file get.chunkIndex get.byteCount := by
  obtain ⟨-, -, -, found⟩ := handleGet_step h
  obtain ⟨file, stored, data⟩ := found success
  refine ⟨file, stored, ?_, data⟩
  unfold handleGet at h
  split at h
  · cases h
    cases success
  · split at h
    · cases h
      cases success
    · rename_i file' disk read
      have same : w.committed get.objectId = some file' := by
        have opened := Disk.query_ok read
        unfold FileTree.readFile at opened
        split at opened <;> cases opened
        rename_i kind
        exact FileTree.content_eq_some.2 kind
      cases stored.symm.trans same
      rcases sliced : readSlice file get disk with ⟨⟨status, data⟩, disk'⟩
      simp only [sliced, Prod.mk.injEq] at h
      obtain ⟨rfl, -⟩ := h
      cases success
      exact readSlice_within sliced

theorem handleDelete_other {req : DeleteRequest} (other : x ≠ req.objectId) (plain : PosixPath.dot ∉ x) :
    (w.handleDelete req).2.committed x = w.committed x :=
  (handleDelete_step (w := w) rfl).1.committed plain other

end StorageWorker

namespace History

open StorageWorker

variable {h : History} {x : Bytes}

/-- An answer with which the committed bytes of `x` may change. -/
def Replaces (x : Bytes) : Handled → Prop
  | .put req status => req.objectId = x ∧ req.finalChunk = true ∧ status = .success
  | .delete req _ => req.objectId = x
  | _ => False

/-- Every step adds one entry to the log, and what does not replace an object keeps its bytes. -/
theorem next_committed (plain : PosixPath.dot ∉ x) (step : WorkerStep) :
    ∃ entry, (h.next step).log = entry :: h.log ∧
      (Replaces x entry ∨ (h.next step).worker.committed x = h.worker.committed x) := by
  cases step with
  | restart => exact ⟨.restart, rfl, .inr rfl⟩
  | handle event outcomes =>
      let w := { h.worker with disk := h.worker.disk.withOutcomes outcomes }
      cases event with
      | put req =>
          rcases handled : w.handlePut req with ⟨response, w'⟩
          have stepped : h.next (.handle (.put req) outcomes) = ⟨w', .put req response.status :: h.log⟩ := by
            simp only [next, w, handled]
          obtain ⟨same, putStep, -⟩ := handlePut_step handled
          rw [stepped]
          refine ⟨_, rfl, ?_⟩
          by_cases here : x = req.objectId
          · subst here
            generalize response.status = status at putStep
            cases putStep with
            | failed _ bad kept => exact .inr kept
            | more part due next grown kept => exact .inr kept
            | commit last due next moved whole => exact .inl ⟨rfl, last, rfl⟩
          · exact .inr (same.committed plain here)
      | get req =>
          refine ⟨_, rfl, .inr ?_⟩
          obtain ⟨-, tree, -⟩ := handleGet_step (w := w) (show w.handleGet req = _ from rfl)
          exact congrArg (fun t : FileTree => t.content (finalPath x)) tree
      | delete req =>
          refine ⟨_, rfl, ?_⟩
          by_cases here : x = req.objectId
          · exact .inl here.symm
          · exact .inr (handleDelete_other here plain)

/-- The committed bytes of an object change only with a successful final `PUT` or a `DELETE` of it,
and a `GET` that succeeds answers with bytes that are committed, cut off where they end. -/
theorem committed_undisturbed (disk : Disk) (steps : List WorkerStep) (plain : PosixPath.dot ∉ x) :
    let h := (start disk).run steps
    (∀ step, ∃ entry, (h.next step).log = entry :: h.log ∧
      (Replaces x entry ∨ (h.next step).worker.committed x = h.worker.committed x)) ∧
    ∀ (get : GetRequest) (outcomes : List Outcome) (response : GetResponse) (w' : StorageWorker), get.objectId = x →
      handleGet { h.worker with disk := h.worker.disk.withOutcomes outcomes } get = (response, w') →
      response.status = .success →
      ∃ file, h.worker.committed x = some file ∧ get.chunkIndex.toNat * chunkSize ≤ file.length ∧
        response.data =
          (file.take (min (get.chunkIndex.toNat * chunkSize + get.byteCount.toNat) file.length)).drop
            (get.chunkIndex.toNat * chunkSize) := by
  refine ⟨next_committed plain, fun get outcomes response w' about handled success => ?_⟩
  subst about
  obtain ⟨file, stored, within, data⟩ := handleGet_success handled success
  exact ⟨file, stored, within, data.trans (slice_eq _ _ _)⟩

/-- A new upload of `"a"` is under way. -/
def reuploadA : List WorkerStep := [putA 0 true [1, 2], putA 0 false [3]]

def getA : GetRequest := { objectId := [97], chunkIndex := 0, byteCount := 1, context := ⟨1, ⟨[109], .metadata⟩⟩ }

theorem committed_undisturbed_reupload :
    (∃ entry, (((start emptyDisk).run reuploadA).next .restart).log = entry :: ((start emptyDisk).run reuploadA).log ∧
      (Replaces [97] entry ∨ (((start emptyDisk).run reuploadA).next .restart).worker.committed [97] =
        ((start emptyDisk).run reuploadA).worker.committed [97])) ∧
    ∃ file, ((start emptyDisk).run reuploadA).worker.committed [97] = some file ∧ 0 * chunkSize ≤ file.length ∧
      [1] = (file.take (min (0 * chunkSize + 1) file.length)).drop (0 * chunkSize) := by
  obtain ⟨kept, reads⟩ := committed_undisturbed emptyDisk reuploadA (x := [97]) (by decide)
  refine ⟨kept .restart, ?_⟩
  rcases handled : handleGet
    { ((start emptyDisk).run reuploadA).worker with
      disk := ((start emptyDisk).run reuploadA).worker.disk.withOutcomes [] } getA with ⟨response, w'⟩
  have answered : response = { chunkIndex := 0, status := .success, data := [1] } :=
    (congrArg Prod.fst handled).symm.trans (by decide +kernel)
  obtain ⟨file, stored, within, data⟩ := reads getA [] response w' rfl handled (by rw [answered])
  rw [answered] at data
  exact ⟨file, stored, within, data⟩

end History

end Dfs
