import Mathlib.Algebra.Order.BigOperators.Group.List
import Dfs.Metadata.Responses
import Dfs.Metadata.Traffic
import Dfs.Network.FrameIO
import Dfs.Storage.Reads

/-!
# The sizes of frames

Object ids are short and no chunk is larger than `CHUNK_SIZE`, so what the two workers ask and
answer fits in a frame, but for two responses that grow with what others have stored: the
listing of a directory and the `FileStat` of a path.
-/

namespace Dfs

open Lib

/-! ## The encoders -/

namespace StorageProtocol

variable {requestId : UInt64}

theorem encodePutRequest_length (request : PutRequest) :
    (encodePutRequest requestId request).buffer.length = 16 + request.objectId.length + request.data.length := by
  rw [encodePutRequest, Rpc.makeFrame_length]
  simp [write]
  omega

theorem encodeGetRequest_length (request : GetRequest) :
    (encodeGetRequest requestId request).buffer.length = 19 + request.objectId.length := by
  rw [encodeGetRequest, Rpc.makeFrame_length]
  simp [write]
  omega

theorem encodeDeleteRequest_length (request : DeleteRequest) :
    (encodeDeleteRequest requestId request).buffer.length = 11 + request.objectId.length := by
  rw [encodeDeleteRequest, Rpc.makeFrame_length]
  simp [write]
  omega

theorem encodePutResponse_fits (response : PutResponse) : (encodePutResponse requestId response).Fits := by
  rw [Frame.fits_iff, encodePutResponse, Rpc.makeFrame_length]
  simp [write, maxMessageSize]

theorem encodeGetResponse_fits {response : GetResponse} (small : response.data.length ≤ chunkSize) :
    (encodeGetResponse requestId response).Fits := by
  rw [Frame.fits_iff, encodeGetResponse, Rpc.makeFrame_length]
  simp [write, maxMessageSize, chunkSize] at small ⊢
  omega

theorem encodeDeleteResponse_fits (response : DeleteResponse) : (encodeDeleteResponse requestId response).Fits := by
  rw [Frame.fits_iff, encodeDeleteResponse, Rpc.makeFrame_length]
  simp [write, maxMessageSize]

end StorageProtocol

/-- A response that says its status and no more than two integers beside it. -/
theorem fits_of_status {job : ClientJob} {requestId : UInt64} {body : Bytes} (small : body.length ≤ 13) :
    (Rpc.makeFrame requestId job .response body).Fits := by
  rw [Frame.fits_iff, Rpc.makeFrame_length, maxMessageSize]
  omega

/-- The length of the response that lists `entries`. -/
def listLength (entries : List (Name × Bool)) : Nat := 15 + (entries.map fun entry => entry.1.length + 2).sum

theorem listLength_le {entries entries' : List (Name × Bool)} (part : List.Subperm entries entries') :
    listLength entries ≤ listLength entries' := by
  obtain ⟨same, perm, sub⟩ := part
  rw [listLength, listLength, ← (perm.map _).sum_nat]
  exact Nat.add_le_add_left ((sub.map _).sum_le_sum fun _ _ => Nat.zero_le _) 15

/-- The length of the response with the `FileStat` of `m`. -/
def statLength (m : FileMetadata) : Nat :=
  40 + m.path.length + m.replicaLocations.1.length + m.replicaLocations.2.length + m.objId.length

namespace ClientProtocol

variable {requestId : UInt64}

theorem encodeReadChunkResponse_fits {response : ReadChunkResponse} (small : response.data.length ≤ chunkSize) :
    (encodeReadChunkResponse requestId response).Fits := by
  rw [Frame.fits_iff, encodeReadChunkResponse, Rpc.makeFrame_length]
  simp [write, maxMessageSize, chunkSize] at small ⊢
  omega

theorem encodeListResponse_length (entries : List (Name × Bool)) (status : ClientStatus) (context : RequestContext) :
    (encodeListResponse requestId
      { status, infoVec := entries.map fun entry => ⟨entry.1, entry.2⟩, context }).buffer.length = listLength entries := by
  rw [encodeListResponse, Rpc.makeFrame_length, listLength]
  have each : ∀ entries : List (Name × Bool), ((entries.map fun entry => (⟨entry.1, entry.2⟩ : FileInfo)).flatMap
      fun info => write info.path ++ write info.isDirectory).length = (entries.map fun entry => entry.1.length + 2).sum := by
    intro entries
    induction entries with
    | nil => rfl
    | cons entry rest ih =>
        simp only [List.map_cons, List.flatMap_cons, List.length_append, List.sum_cons, ih]
        simp [write]
  rw [List.length_append, List.length_append, each]
  simp [write]
  omega

theorem encodeStatResponse_length (response : StatResponse) :
    (encodeStatResponse requestId response).buffer.length =
      40 + response.stat.path.length + response.stat.storageNodes.1.length + response.stat.storageNodes.2.length +
        response.stat.objectId.length := by
  rw [encodeStatResponse, Rpc.makeFrame_length]
  simp [write]
  omega

end ClientProtocol

/-! ## Storage workers -/

theorem StorageWorker.handleGet_length (w : StorageWorker) (req : GetRequest) :
    (w.handleGet req).1.data.length ≤ chunkSize := by
  unfold handleGet
  split
  · exact Nat.zero_le _
  rename_i checked
  split
  · exact Nat.zero_le _
  rename_i file disk opened
  have sliced : (readSlice file req disk).1.2.length ≤ chunkSize := by
    have short : (slice file req.chunkIndex req.byteCount).length ≤ chunkSize := by
      rw [slice, List.length_take]
      exact (Nat.min_le_left _ _).trans (Nat.not_lt.1 (not_or.1 checked).2)
    unfold readSlice
    dsimp only
    repeat' split
    all_goals first | exact Nat.zero_le _ | exact short
  exact sliced

/-- Every reply of a storage worker fits in a frame. -/
theorem StorageWorker.handle_fits (w : StorageWorker) (event : StorageEvent) : (w.handle event).1.Fits := by
  cases event with
  | put req => exact StorageProtocol.encodePutResponse_fits _
  | get req => exact StorageProtocol.encodeGetResponse_fits (w.handleGet_length req)
  | delete req => exact StorageProtocol.encodeDeleteResponse_fits _

/-! ## The metadata worker -/

/-- No object id is longer than a generated one. -/
def ShortId (x : Bytes) (_ : NodeId × NodeId) : Prop := x.length ≤ 36

namespace MetadataWorker

/-- The response to `event` is larger than a frame: the directory it lists holds too many bytes of
names, or the `FileStat` it asks for holds too long a path or storage nodes with too long ids. -/
def Overflows (w : MetadataWorker) : ClientEvent → Prop
  | .list req => ∃ entries, w.store.Lists req.path entries ∧ maxMessageSize < listLength entries
  | .stat req =>
      (∃ m, w.store.getMetadata req.path = .ok m ∧ maxMessageSize < statLength m) ∨
        w.store.getMetadata req.path = .error .notFound ∧ w.store.FindsDirectory req.path ∧
          maxMessageSize < 40 + req.path.length
  | _ => False

end MetadataWorker

namespace MetadataState

open MetadataWorker Network

variable {ν : Type} [Network ν] {env : Env} {s s' : MetadataState ν} {event : ClientEvent}

/-- Requests to storage nodes fit in a frame. -/
theorem asks_fit {w : MetadataWorker} (short : w.All ShortId) : Asks Frame.Fits w event := by
  cases event with
  | writeChunk req =>
      intro write found due
      have id : write.objectId.length ≤ 36 := short _ _ (.write _ write found)
      have chunk : req.data.length ≤ chunkSize := due.2.2 ▸ expectedSize_le _ _
      rw [Frame.fits_iff, StorageProtocol.encodePutRequest_length]
      dsimp only [putOf]
      rw [maxMessageSize]
      rw [chunkSize] at chunk
      omega
  | readChunk req =>
      intro read found id
      have short : read.objectId.length ≤ 36 := short _ _ (.read _ read found)
      rw [Frame.fits_iff, StorageProtocol.encodeGetRequest_length, maxMessageSize]
      dsimp only
      omega
  | remove req =>
      intro m found id
      unfold MetadataStore.getMetadata at found
      split at found
      · cases found
      split at found
      · cases found
      rename_i record
      cases found
      have short : m.objId.length ≤ 36 := short _ _ (.record _ m record)
      rw [Frame.fits_iff, StorageProtocol.encodeDeleteRequest_length, maxMessageSize]
      dsimp only
      omega
  | _ => trivial

theorem chunkIn_length {chunkIndex expected : UInt32} {message : Message} {data : Bytes}
    (h : chunkIn chunkIndex expected message = some data) : data.length = expected.toNat := by
  unfold chunkIn at h
  split at h
  · cases h
  split at h
  · cases h
  · rename_i checks
    cases h
    simp only [not_or, not_not] at checks
    exact checks.2.2

theorem fetchChunk_length {req : ReadChunkRequest} {objectId : Bytes} {expected : UInt32} {nodes : List NodeId}
    {data : Bytes} (h : (s.fetchChunk req objectId expected nodes).1 = some data) : data.length = expected.toNat := by
  induction nodes generalizing s with
  | nil => cases h
  | cons node rest ih =>
      cases available : s.worker.isAvailable node with
      | false =>
          rw [fetchChunk_unavailable available] at h
          exact ih h
      | true =>
          rw [fetchChunk_available available] at h
          split at h
          · exact ih h
          · rename_i got
            cases h
            obtain ⟨message, -, chunk⟩ := Option.bind_eq_some_iff.1 got
            exact chunkIn_length chunk

theorem readChunk_length (s : MetadataState ν) (req : ReadChunkRequest) : (s.readChunk req).1.2.length ≤ chunkSize := by
  unfold readChunk
  split
  · exact Nat.zero_le _
  split
  · exact Nat.zero_le _
  rename_i read found turn
  have fetched : ∀ data, (s.fetchChunk req read.objectId (expectedSize read.fileSize req.chunkIndex).toUInt32
      [read.replicas.1, read.replicas.2]).1 = some data →
      data.length = (expectedSize read.fileSize req.chunkIndex).toUInt32.toNat := fun data => fetchChunk_length
  dsimp only
  split <;> rename_i got <;> rw [got] at fetched
  · exact Nat.zero_le _
  · dsimp only
    rw [fetched _ rfl, UInt64.toNat_toUInt32]
    exact (Nat.mod_le _ _).trans (expectedSize_le _ _)

theorem list_answer_fits {id : UInt64} {context : RequestContext} {infos : List FileInfo} {store : MetadataStore} {path : Bytes}
    (read : (MetadataStore.list path store).1 = .ok (.ok infos))
    (fits : ∀ entries, store.Lists path entries → listLength entries ≤ maxMessageSize) :
    (ClientProtocol.encodeListResponse id { status := .success, infoVec := infos, context }).Fits := by
  obtain ⟨-, entries, rfl, empty | lists⟩ := MetadataStore.list_infos read
  · rw [Frame.fits_iff, ClientProtocol.encodeListResponse_length, empty]
    decide
  · rw [Frame.fits_iff, ClientProtocol.encodeListResponse_length]
    exact fits entries lists

/-- What a handler sends fits in a frame unless its response is too large. -/
theorem handle_used (short : s.worker.All ShortId) (fits : ¬ (s.worker.withOutcomes env.outcomes).Overflows event) :
    Used Frame.Fits s.network (s.handle env event).2.network := by
  have short' : (s.worker.withOutcomes env.outcomes).All ShortId := fun x r names => short x r names.withOutcomes
  have asks : Asks Frame.Fits (s.entered env).worker event := asks_fit short'
  cases event with
  | createFile req => exact Used.refl.send _ _ (fits_of_status (by simp [write]))
  | writeFile req =>
      rcases handled : (s.entered env).writeFile env req with ⟨status, s₁⟩
      have used : Used Frame.Fits s.network s₁.network := (writeFile_step handled).1 ▸ .refl
      rw [handle, handleWriteFile]
      rw [entered] at handled
      rw [handled]
      exact used.send _ _ (fits_of_status (by simp [write]))
  | writeChunk req =>
      have used := writeChunk_used (s := s.entered env) env .refl asks
      rw [handle, handleWriteChunk]
      rw [entered] at used
      split <;> rename_i written <;> rw [written] at used
      · exact used
      · exact used.send _ _ (fits_of_status (by simp [write]))
  | readFile req =>
      rcases handled : (s.entered env).readFile req with ⟨answer, s₁⟩
      have used : Used Frame.Fits s.network s₁.network := (readFile_step handled).1 ▸ .refl
      rw [handle, handleReadFile]
      rw [entered] at handled
      rw [handled]
      exact used.send _ _ (fits_of_status (by simp [write]))
  | readChunk req =>
      have used := readChunk_used (s := s.entered env) .refl asks
      exact used.send _ _ (ClientProtocol.encodeReadChunkResponse_fits (readChunk_length (s.entered env) req))
  | remove req =>
      have used := remove_used (s := s.entered env) .refl asks
      exact used.send _ _ (fits_of_status (by simp [write]))
  | list req =>
      have small : ∀ entries, (s.worker.withOutcomes env.outcomes).store.Lists req.path entries →
          listLength entries ≤ maxMessageSize := fun entries lists => Nat.not_lt.1 fun large => fits ⟨entries, lists, large⟩
      rw [handle, handleList, onStore]
      rcases read : MetadataStore.list req.path (s.worker.withOutcomes env.outcomes).store with ⟨r, store⟩
      rcases r with e | (e | infos)
      · exact .refl
      · exact Used.refl.send _ _ (fits_of_status (by simp [write]))
      · exact Used.refl.send _ _ (list_answer_fits (by rw [read]) small)
  | makeDir req => exact Used.refl.send _ _ (fits_of_status (by simp [write]))
  | rename req => exact Used.refl.send _ _ (fits_of_status (by simp [write]))
  | stat req =>
      have none : ∀ id status, (ClientProtocol.encodeStatResponse id
          { status, stat := noStat, context := req.context }).Fits := fun id status => by
        rw [Frame.fits_iff, ClientProtocol.encodeStatResponse_length]
        show 40 ≤ maxMessageSize
        decide
      rw [handle, handleStat]
      dsimp only
      split
      · rename_i m found
        refine Used.refl.send _ _ ?_
        rw [Frame.fits_iff, ClientProtocol.encodeStatResponse_length]
        exact Nat.not_lt.1 fun large => fits (.inl ⟨m, found, large⟩)
      · rename_i missing
        rw [onStore]
        rcases read : MetadataStore.list req.path (s.worker.withOutcomes env.outcomes).store with ⟨r, store⟩
        rcases r with e | (e | infos)
        · exact .refl
        · exact Used.refl.send _ _ (none _ _)
        · refine Used.refl.send _ _ ?_
          have finds := (MetadataStore.list_infos (by rw [read])).1
          rw [Frame.fits_iff, ClientProtocol.encodeStatResponse_length]
          exact Nat.not_lt.1 fun large => fits (.inr ⟨missing, finds, large⟩)
      · exact Used.refl.send _ _ (none _ _)

/-- Every frame that the handler of `event` sends fits. -/
def AllFit (env : Env) (event : ClientEvent) (w : MetadataWorker) (n : ν) : Prop :=
  ∀ entry ∈ (handle env event ({ worker := w, network := ⟨n, []⟩ } : MetadataState (Recorded ν))).2.network.sent, entry.2.Fits

/-- A response that is too large is sent all the same. -/
theorem overflows_sent {w : MetadataWorker} (n : ν) (overflows : (w.withOutcomes env.outcomes).Overflows event) :
    ∃ entry ∈ (handle env event ({ worker := w, network := ⟨n, []⟩ } : MetadataState (Recorded ν))).2.network.sent,
      ¬ entry.2.Fits := by
  cases event with
  | list req =>
      obtain ⟨entries, lists, large⟩ := overflows
      have read := MetadataStore.list_lists lists
      rw [handle, handleList, onStore]
      dsimp only
      rw [read]
      refine ⟨_, List.mem_append_right _ List.mem_cons_self, ?_⟩
      rw [Frame.fits_iff, ClientProtocol.encodeListResponse_length]
      exact Nat.not_le.2 large
  | stat req =>
      rcases overflows with ⟨m, found, large⟩ | ⟨missing, finds, large⟩
      · rw [handle, handleStat]
        dsimp only
        rw [found]
        refine ⟨_, List.mem_append_right _ List.mem_cons_self, ?_⟩
        rw [Frame.fits_iff, ClientProtocol.encodeStatResponse_length]
        exact Nat.not_le.2 large
      · obtain ⟨infos, read⟩ := MetadataStore.list_finds finds
        rw [handle, handleStat]
        dsimp only
        rw [missing]
        dsimp only [onStore]
        rw [read]
        refine ⟨_, List.mem_append_right _ List.mem_cons_self, ?_⟩
        rw [Frame.fits_iff, ClientProtocol.encodeStatResponse_length]
        exact Nat.not_le.2 large
  | _ => exact overflows.elim

theorem allFit_iff {w : MetadataWorker} {n : ν} (short : w.All ShortId) :
    AllFit env event w n ↔ ¬ (w.withOutcomes env.outcomes).Overflows event := by
  constructor
  · intro all overflows
    obtain ⟨entry, sent, large⟩ := overflows_sent n overflows
    exact large (all entry sent)
  · intro fits
    have used := handle_used (s := ({ worker := w, network := ⟨n, []⟩ } : MetadataState (Recorded ν))) short fits
    refine used.keeps (P := fun n : Recorded ν => ∀ entry ∈ n.sent, entry.2.Fits) (fun n node frame holds allowed entry mem => ?_)
      (fun n timeout p holds => holds) (by simp)
    rcases List.mem_append.1 mem with before | new
    · exact holds entry before
    · rw [List.mem_singleton.1 new]
      exact allowed

end MetadataState

end Dfs
