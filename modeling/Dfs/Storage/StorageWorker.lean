import Dfs.Lib.Disk
import Dfs.Common.StorageProtocol

/-!
# The storage worker (`StorageWorker.cpp`)

The tree of the worker's disk is its objects directory: object `x` is the file `x` there and
a write in progress grows the file `x.tmp`. The worker also counts, in memory only, which
chunk of an object it expects next.
-/

namespace Dfs

open Lib

structure StorageWorker where
  disk : Disk
  nextChunks : Assoc Bytes UInt32

namespace StorageWorker

/-- `".tmp"` -/
def tmpSuffix : Bytes := [46, 116, 109, 112]

/-- The committed file of an object. -/
def finalPath (objectId : Bytes) : FilePath := [objectId]

/-- The file a write in progress grows. -/
def tmpPath (objectId : Bytes) : FilePath := PosixPath.appendSuffix (finalPath objectId) tmpSuffix

def validObjectId (objectId : Bytes) : Bool :=
  if objectId = [] ∨ objectId = PosixPath.dotName ∨ objectId = PosixPath.dotDotName then false
  else
    !PosixPath.isAbsolute objectId && !PosixPath.hasParentPath objectId &&
      PosixPath.samePath objectId (PosixPath.filename objectId)

/-- Removes the temporary file; `objectId` is not used. -/
def abortWrite (w : StorageWorker) (_objectId : Bytes) (path : FilePath) : StorageWorker :=
  { w with disk := (w.disk.remove path).2 }

def availableBytes (w : StorageWorker) : UInt64 × StorageWorker :=
  match w.disk.space with
  | (.error _, disk) => (0, { w with disk })
  | (.ok available, disk) => (available, { w with disk })

/-- The output stream: chunk 0 starts the file anew, every other chunk appends. -/
def openOutput (path : FilePath) (chunkIndex : UInt32) (disk : Disk) : Except Errc Unit × Disk :=
  if chunkIndex = 0 then disk.openTruncate path else disk.openAppend path

/-- `output.write`, `output.flush`, `output.close`: all three run, and one failure is enough. -/
def writeOut (path : FilePath) (data : Bytes) (disk : Disk) : Except Errc Unit × Disk :=
  let (written, disk) := disk.write path data
  let (flushed, disk) := disk.settle
  let (closed, disk) := disk.settle
  (written.bind fun _ => flushed.bind fun _ => closed, disk)

/-- The part of `write_chunk` after the chunk index was found to be the expected one. -/
def appendChunk (w : StorageWorker) (req : PutRequest) : StorageStatus × StorageWorker :=
  let tmp := tmpPath req.objectId
  match w.disk.space with
  | (.error _, disk) => (.writeError, { w with disk }.abortWrite req.objectId tmp)
  | (.ok available, disk) =>
      if available.toNat < req.data.length then
        (.noSpace, { w with disk }.abortWrite req.objectId tmp)
      else
        match openOutput tmp req.chunkIndex disk with
        | (.error _, disk) => (.writeError, { w with disk }.abortWrite req.objectId tmp)
        | (.ok _, disk) =>
            match writeOut tmp req.data disk with
            | (.error _, disk) => (.writeError, { w with disk }.abortWrite req.objectId tmp)
            | (.ok _, disk) =>
                let w := { disk, nextChunks := w.nextChunks.insert req.objectId (req.chunkIndex + 1) }
                if req.finalChunk = false then (.success, w)
                else
                  match w.disk.rename tmp (finalPath req.objectId) with
                  | (.error _, disk) => (.writeError, { w with disk }.abortWrite req.objectId tmp)
                  | (.ok _, disk) => (.success, { disk, nextChunks := w.nextChunks.erase req.objectId })

def writeChunk (w : StorageWorker) (req : PutRequest) : StorageStatus × StorageWorker :=
  if validObjectId req.objectId = false then (.invalidRequest, w)
  else
    let w :=
      if req.chunkIndex = 0 then { w with nextChunks := w.nextChunks.insert req.objectId 0 } else w
    if w.nextChunks.lookup req.objectId ≠ some req.chunkIndex then
      (.invalidRequest, w.abortWrite req.objectId (tmpPath req.objectId))
    else w.appendChunk req

def handlePut (w : StorageWorker) (req : PutRequest) : PutResponse × StorageWorker :=
  let (status, w) := w.writeChunk req
  let (sizeAvailable, w) := w.availableBytes
  ({ chunkIndex := req.chunkIndex, sizeAvailable, status }, w)

/-- What a `GET` finds in the file's bytes. -/
def slice (file : Bytes) (chunkIndex byteCount : UInt32) : Bytes :=
  (file.drop (chunkIndex.toNat * chunkSize)).take byteCount.toNat

/-- The part of the `GET` handler after the file was opened. -/
def readSlice (file : Bytes) (req : GetRequest) (disk : Disk) : (StorageStatus × Bytes) × Disk :=
  match disk.settle with -- tellg
  | (.error _, disk) => ((.readError, []), disk)
  | (.ok _, disk) =>
      if req.chunkIndex.toNat * chunkSize > file.length then ((.invalidRequest, []), disk)
      else
        match disk.settle with -- seekg
        | (.error _, disk) => ((.readError, []), disk)
        | (.ok _, disk) =>
            let data := slice file req.chunkIndex req.byteCount
            if data = [] then ((.success, data), disk)
            else
              match disk.settle with -- read
              | (.error _, disk) => ((.readError, []), disk)
              | (.ok _, disk) => ((.success, data), disk)

def handleGet (w : StorageWorker) (req : GetRequest) : GetResponse × StorageWorker :=
  if validObjectId req.objectId = false ∨ req.byteCount.toNat > chunkSize then
    ({ chunkIndex := req.chunkIndex, status := .invalidRequest, data := [] }, w)
  else
    match w.disk.readFile (finalPath req.objectId) with
    | (.error _, disk) =>
        ({ chunkIndex := req.chunkIndex, status := .readError, data := [] }, { w with disk })
    | (.ok file, disk) =>
        let ((status, data), disk) := readSlice file req disk
        ({ chunkIndex := req.chunkIndex, status, data }, { w with disk })

def handleDelete (w : StorageWorker) (req : DeleteRequest) : DeleteResponse × StorageWorker :=
  if validObjectId req.objectId = false then ({ status := .invalidRequest }, w)
  else
    match w.disk.remove (finalPath req.objectId) with
    | (.error _, disk) => ({ status := .writeError }, { w with disk })
    | (.ok _, disk) =>
        match disk.remove (tmpPath req.objectId) with
        | (.error _, disk) => ({ status := .writeError }, { w with disk })
        | (.ok _, disk) =>
            ({ status := .success }, { disk, nextChunks := w.nextChunks.erase req.objectId })

/-- A new process on the same disk. -/
def restart (w : StorageWorker) : StorageWorker := { w with nextChunks := ∅ }

/-! ## What a `PUT` can do -/

variable {w w' : StorageWorker} {x : Bytes} {req : PutRequest} {status : StorageStatus}

theorem tmpPath_eq (x : Bytes) : tmpPath x = [x ++ tmpSuffix] := by
  simp [tmpPath, PosixPath.appendSuffix, finalPath]

theorem tmpPath_ne_finalPath (x : Bytes) : tmpPath x ≠ finalPath x := by
  simp [tmpPath_eq, finalPath, tmpSuffix]

/-- The committed bytes of an object. -/
def committed (w : StorageWorker) (x : Bytes) : Option Bytes := w.disk.tree.content (finalPath x)

/-- The bytes of the write in progress. -/
def pending (w : StorageWorker) (x : Bytes) : Option Bytes := w.disk.tree.content (tmpPath x)

/-- The bytes to which a chunk is appended. -/
def base (w : StorageWorker) (req : PutRequest) : Bytes :=
  if req.chunkIndex = 0 then [] else (w.pending req.objectId).getD []

/-- Nothing but object `x` has changed. -/
structure SameBut (x : Bytes) (w w' : StorageWorker) : Prop where
  next : ∀ y, y ≠ x → w'.nextChunks.lookup y = w.nextChunks.lookup y
  files : ∀ q, q ≠ finalPath x → q ≠ tmpPath x → w'.disk.tree.content q = w.disk.tree.content q

theorem SameBut.refl (x : Bytes) (w : StorageWorker) : SameBut x w w := ⟨fun _ _ => rfl, fun _ _ _ => rfl⟩

theorem SameBut.trans {w'' : StorageWorker} (h : SameBut x w w') (h' : SameBut x w' w'') : SameBut x w w'' :=
  ⟨fun y ne => (h'.next y ne).trans (h.next y ne), fun q a b => (h'.files q a b).trans (h.files q a b)⟩

/-- What the worker is after a `PUT` that was answered with `status`. -/
inductive PutStep (w : StorageWorker) (req : PutRequest) (w' : StorageWorker) : StorageStatus → Prop where
  | failed (status : StorageStatus) (bad : status ≠ .success)
      (kept : w'.committed req.objectId = w.committed req.objectId) : PutStep w req w' status
  | more (part : req.finalChunk = false) (due : req.chunkIndex = 0 ∨ w.nextChunks.lookup req.objectId = some req.chunkIndex)
      (next : w'.nextChunks.lookup req.objectId = some (req.chunkIndex + 1))
      (grown : w'.pending req.objectId = some (w.base req ++ req.data))
      (kept : w'.committed req.objectId = w.committed req.objectId) : PutStep w req w' .success
  | commit (last : req.finalChunk = true) (due : req.chunkIndex = 0 ∨ w.nextChunks.lookup req.objectId = some req.chunkIndex)
      (next : w'.nextChunks.lookup req.objectId = none)
      (moved : w'.pending req.objectId = none)
      (whole : w'.committed req.objectId = some (w.base req ++ req.data)) : PutStep w req w' .success

theorem abortWrite_same (w : StorageWorker) (x : Bytes) :
    SameBut x w (w.abortWrite x (tmpPath x)) ∧ (w.abortWrite x (tmpPath x)).committed x = w.committed x :=
  ⟨⟨fun _ _ => rfl, fun _ _ b => Disk.remove_ne rfl b⟩, Disk.remove_ne rfl (tmpPath_ne_finalPath x).symm⟩

theorem openOutput_ne {path q : FilePath} {i : UInt32} {d d' : Disk} {r : Except Errc Unit}
    (h : openOutput path i d = (r, d')) (ne : q ≠ path) : d'.tree.content q = d.tree.content q := by
  unfold openOutput at h
  cases r with
  | error e => split at h <;> rw [(Disk.call_error h).1]
  | ok _ =>
      split at h
      · rw [Disk.openTruncate_ok h, if_neg ne]
      · rw [Disk.openAppend_ok h, if_neg ne]

theorem openOutput_ok {path : FilePath} {i : UInt32} {d d' : Disk} (h : openOutput path i d = (.ok (), d')) :
    d'.tree.content path = some (if i = 0 then [] else (d.tree.content path).getD []) := by
  unfold openOutput at h
  split at h
  · rename_i first
    rw [Disk.openTruncate_ok h, if_pos rfl, if_pos first]
  · rename_i later
    rw [Disk.openAppend_ok h, if_pos rfl, if_neg later]

/-- The three calls of `writeOut` one by one. -/
theorem writeOut_calls {path : FilePath} {data : Bytes} {d d' : Disk} {r : Except Errc Unit}
    (h : writeOut path data d = (r, d')) :
    ∃ written d₁, d.write path data = (written, d₁) ∧ d'.tree = d₁.tree ∧ (r = .ok () → written = .ok ()) := by
  unfold writeOut at h
  rcases wrote : d.write path data with ⟨written, d₁⟩
  rcases flush : d₁.settle with ⟨flushed, d₂⟩
  rcases close : d₂.settle with ⟨closed, d₃⟩
  simp only [wrote, flush, close, Prod.mk.injEq] at h
  obtain ⟨status, rfl⟩ := h
  refine ⟨written, d₁, rfl, by rw [(Disk.settle_tree close).1, (Disk.settle_tree flush).1], fun ok => ?_⟩
  cases written with
  | error e =>
      rw [ok] at status
      cases status
  | ok _ => rfl

theorem writeOut_ne {path q : FilePath} {data : Bytes} {d d' : Disk} {r : Except Errc Unit}
    (h : writeOut path data d = (r, d')) (ne : q ≠ path) : d'.tree.content q = d.tree.content q := by
  obtain ⟨written, d₁, wrote, same, -⟩ := writeOut_calls h
  rw [same, Disk.write_ne wrote ne]

theorem writeOut_ok {path : FilePath} {data b : Bytes} {d d' : Disk}
    (h : writeOut path data d = (.ok (), d')) (found : d.tree.content path = some b) :
    d'.tree.content path = some (b ++ data) := by
  obtain ⟨written, d₁, wrote, same, ok⟩ := writeOut_calls h
  rw [ok rfl] at wrote
  rw [same, Disk.write_ok wrote found]

/-- `remove` after a failed call that left everything but the temporary file alone. -/
theorem abortWrite_failed {disk : Disk} (bad : status ≠ .success)
    (same : ∀ q, q ≠ tmpPath req.objectId → disk.tree.content q = w.disk.tree.content q)
    {next : Assoc Bytes UInt32} (others : ∀ y, y ≠ req.objectId → next.lookup y = w.nextChunks.lookup y) :
    let w' := ({ disk, nextChunks := next } : StorageWorker).abortWrite req.objectId (tmpPath req.objectId)
    SameBut req.objectId w w' ∧ PutStep w req w' status := by
  obtain ⟨⟨-, files⟩, kept⟩ :=
    abortWrite_same ({ disk, nextChunks := next } : StorageWorker) req.objectId
  refine ⟨⟨others, fun q a b => (files q a b).trans (same q b)⟩, .failed _ bad (kept.trans ?_)⟩
  exact same _ (tmpPath_ne_finalPath _).symm

theorem appendChunk_step (h : w.appendChunk req = (status, w'))
    (due : req.chunkIndex = 0 ∨ w.nextChunks.lookup req.objectId = some req.chunkIndex) :
    SameBut req.objectId w w' ∧ PutStep w req w' status := by
  have others : ∀ v y, y ≠ req.objectId → (w.nextChunks.insert req.objectId v).lookup y = w.nextChunks.lookup y :=
    fun v y ne => by rw [Assoc.lookup_insert_ite, if_neg ne]
  unfold appendChunk at h
  dsimp only at h
  split at h
  · rename_i looked
    cases h
    exact abortWrite_failed (by simp) (fun q _ => by rw [(Disk.space_tree looked).1]) fun _ _ => rfl
  · rename_i available disk looked
    have same := (Disk.space_tree looked).1
    split at h
    · cases h
      exact abortWrite_failed (by simp) (fun q _ => by rw [same]) fun _ _ => rfl
    · split at h
      · rename_i disk' opened
        cases h
        exact abortWrite_failed (by simp) (fun q ne => by rw [openOutput_ne opened ne, same]) fun _ _ => rfl
      · rename_i disk' opened
        have openFile : disk'.tree.content (tmpPath req.objectId) = some (w.base req) := by
          rw [openOutput_ok opened, base, pending, same]
        split at h
        · rename_i disk'' written
          cases h
          exact abortWrite_failed (by simp)
            (fun q ne => by rw [writeOut_ne written ne, openOutput_ne opened ne, same]) fun _ _ => rfl
        · rename_i disk'' written
          have grown : disk''.tree.content (tmpPath req.objectId) = some (w.base req ++ req.data) :=
            writeOut_ok written openFile
          have rest : ∀ q, q ≠ tmpPath req.objectId → disk''.tree.content q = w.disk.tree.content q :=
            fun q ne => by rw [writeOut_ne written ne, openOutput_ne opened ne, same]
          split at h
          · rename_i part
            cases h
            refine ⟨⟨others _, fun q _ b => rest q b⟩, .more part due ?_ grown (rest _ (tmpPath_ne_finalPath _).symm)⟩
            rw [Assoc.lookup_insert_ite, if_pos rfl]
          · rename_i last
            split at h
            · rename_i disk₃ renamed
              cases h
              exact abortWrite_failed (by simp)
                (fun q ne => by rw [(Disk.call_error renamed).1]; exact rest q ne) (others _)
            · rename_i disk₃ renamed
              cases h
              have moved := FileTree.rename_file_content (tmpPath_ne_finalPath _) grown (Disk.call_ok renamed).1
              refine ⟨⟨fun y ne => ?_, fun q a b => ?_⟩, .commit (by simpa using last) due ?_ ?_ ?_⟩
              · rw [Assoc.lookup_erase_ite, if_neg ne, others _ y ne]
              · rw [moved, if_neg a, if_neg b, rest q b]
              · rw [Assoc.lookup_erase_ite, if_pos rfl]
              · rw [pending, moved, if_neg (tmpPath_ne_finalPath _), if_pos rfl]
              · rw [committed, moved, if_pos rfl]

/-- What a `PUT` can do, seen from the object it is about. -/
theorem writeChunk_step (h : w.writeChunk req = (status, w')) :
    SameBut req.objectId w w' ∧ PutStep w req w' status := by
  unfold writeChunk at h
  dsimp only at h
  split at h
  · cases h
    exact ⟨.refl _ _, .failed _ (by simp) rfl⟩
  · generalize counted : (if req.chunkIndex = 0 then
      { w with nextChunks := w.nextChunks.insert req.objectId 0 } else w) = w₀ at h
    -- counting from 0 again concerns the counter of this object only
    have disk : w₀.disk = w.disk := by rw [← counted]; split <;> rfl
    have others : ∀ y, y ≠ req.objectId → w₀.nextChunks.lookup y = w.nextChunks.lookup y := by
      intro y ne
      rw [← counted]
      split
      · rw [Assoc.lookup_insert_ite, if_neg ne]
      · rfl
    have same : SameBut req.objectId w w₀ := ⟨others, fun _ _ _ => by rw [disk]⟩
    split at h
    · cases h
      have abort := abortWrite_same w₀ req.objectId
      refine ⟨same.trans abort.1, .failed _ (by simp) ?_⟩
      rw [abort.2, committed, disk, committed]
    · rename_i found
      have expected := Classical.not_not.1 found
      have due : req.chunkIndex = 0 ∨ w.nextChunks.lookup req.objectId = some req.chunkIndex := by
        by_cases first : req.chunkIndex = 0
        · exact Or.inl first
        · rw [← counted, if_neg first] at expected
          exact Or.inr expected
      have base_eq : w₀.base req = w.base req := by rw [base, base, pending, pending, disk]
      have committed_eq : w₀.committed req.objectId = w.committed req.objectId := by
        rw [committed, committed, disk]
      obtain ⟨sameStep, step⟩ := appendChunk_step h (Or.inr expected)
      refine ⟨same.trans sameStep, ?_⟩
      cases step with
      | failed _ bad kept => exact .failed _ bad (kept.trans committed_eq)
      | more part _ next grown kept => exact .more part due next (base_eq ▸ grown) (kept.trans committed_eq)
      | commit last _ next moved whole => exact .commit last due next moved (base_eq ▸ whole)

theorem availableBytes_same (w : StorageWorker) :
    w.availableBytes.2.nextChunks = w.nextChunks ∧ w.availableBytes.2.disk.tree = w.disk.tree := by
  unfold availableBytes
  split
  · rename_i looked
    exact ⟨rfl, (Disk.space_tree looked).1⟩
  · rename_i looked
    exact ⟨rfl, (Disk.space_tree looked).1⟩

theorem handlePut_step {response : PutResponse} (h : w.handlePut req = (response, w')) :
    SameBut req.objectId w w' ∧ PutStep w req w' response.status ∧ response.chunkIndex = req.chunkIndex := by
  unfold handlePut at h
  rcases wrote : w.writeChunk req with ⟨status, w₁⟩
  simp only [wrote, Prod.mk.injEq] at h
  obtain ⟨rfl, rfl⟩ := h
  obtain ⟨next, tree⟩ := availableBytes_same w₁
  obtain ⟨same, step⟩ := writeChunk_step wrote
  refine ⟨⟨fun y ne => by rw [next, same.next y ne], fun q a b => by rw [tree, same.files q a b]⟩, ?_, rfl⟩
  cases step with
  | failed _ bad kept => exact .failed _ bad (by rw [← kept, committed, tree, committed])
  | more part due step grown kept =>
      exact .more part due (by rw [next, step]) (by rw [← grown, pending, tree, pending])
        (by rw [← kept, committed, tree, committed])
  | commit last due step moved whole =>
      exact .commit last due (by rw [next, step]) (by rw [← moved, pending, tree, pending])
        (by rw [← whole, committed, tree, committed])

/-! ## What a `GET` and a `DELETE` can do -/

theorem readSlice_tree {file : Bytes} {get : GetRequest} {d d' : Disk} {r : StorageStatus × Bytes}
    (h : readSlice file get d = (r, d')) :
    d'.tree = d.tree ∧ (r.1 = .success → r.2 = slice file get.chunkIndex get.byteCount) := by
  unfold readSlice at h
  dsimp only at h
  split at h
  · rename_i told
    cases h
    exact ⟨(Disk.settle_tree told).1, by simp⟩
  · rename_i told
    split at h
    · cases h
      exact ⟨(Disk.settle_tree told).1, by simp⟩
    · split at h
      · rename_i sought
        cases h
        exact ⟨by rw [(Disk.settle_tree sought).1, (Disk.settle_tree told).1], by simp⟩
      · rename_i sought
        have tree := (Disk.settle_tree sought).1.trans (Disk.settle_tree told).1
        split at h
        · cases h
          exact ⟨tree, fun _ => rfl⟩
        · split at h <;> rename_i read <;> cases h
          · exact ⟨(Disk.settle_tree read).1.trans tree, by simp⟩
          · exact ⟨(Disk.settle_tree read).1.trans tree, fun _ => rfl⟩

theorem handleGet_step {get : GetRequest} {response : GetResponse} (h : w.handleGet get = (response, w')) :
    w'.nextChunks = w.nextChunks ∧ w'.disk.tree = w.disk.tree ∧ response.chunkIndex = get.chunkIndex ∧
      (response.status = .success → ∃ file, w.committed get.objectId = some file ∧
        response.data = slice file get.chunkIndex get.byteCount) := by
  unfold handleGet at h
  split at h
  · cases h
    simp
  · split at h
    · rename_i read
      cases h
      exact ⟨rfl, (Disk.query_tree read).1, rfl, by simp⟩
    · rename_i file disk read
      rcases sliced : readSlice file get disk with ⟨⟨status, data⟩, disk'⟩
      simp only [sliced, Prod.mk.injEq] at h
      obtain ⟨rfl, rfl⟩ := h
      obtain ⟨tree, data_eq⟩ := readSlice_tree sliced
      refine ⟨rfl, tree.trans (Disk.query_tree read).1, rfl, fun ok => ⟨file, ?_, data_eq ok⟩⟩
      have found := Disk.query_ok read
      unfold FileTree.readFile at found
      split at found <;> cases found
      rename_i kind
      exact FileTree.content_eq_some.2 kind

theorem handleDelete_step {delete : DeleteRequest} {response : DeleteResponse}
    (h : w.handleDelete delete = (response, w')) :
    SameBut delete.objectId w w' ∧
      (response.status = .success → w'.nextChunks.lookup delete.objectId = none ∧
        w'.committed delete.objectId = none ∧ w'.pending delete.objectId = none) := by
  unfold handleDelete at h
  split at h
  · cases h
    exact ⟨.refl _ _, by simp⟩
  · split at h
    · rename_i failed
      cases h
      exact ⟨⟨fun _ _ => rfl, fun _ a _ => Disk.remove_ne failed a⟩, by simp⟩
    · rename_i first
      split at h
      · rename_i failed
        cases h
        exact ⟨⟨fun _ _ => rfl, fun _ a b => (Disk.remove_ne failed b).trans (Disk.remove_ne first a)⟩, by simp⟩
      · rename_i second
        cases h
        refine ⟨⟨fun y ne => ?_, fun _ a b => (Disk.remove_ne second b).trans (Disk.remove_ne first a)⟩, fun _ => ?_⟩
        · rw [Assoc.lookup_erase_ite, if_neg ne]
        · refine ⟨?_, ?_, ?_⟩
          · rw [Assoc.lookup_erase_ite, if_pos rfl]
          · rw [committed, Disk.remove_ne second (tmpPath_ne_finalPath _).symm, Disk.remove_ok first, if_pos rfl]
          · rw [pending, Disk.remove_ok second, if_pos rfl]

end StorageWorker

end Dfs
