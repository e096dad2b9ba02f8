import Dfs.Common.Formats

/-!
# Decoding what was encoded

Every message kind has an encoder and a decoder of its own. A `Codec` puts the two side by
side; that a decoder undoes its encoder is shown from what it does with a body that starts
with the encoded fields, whatever follows them.
-/

namespace Dfs

open Lib

/-- The duration cast to milliseconds takes nothing from a whole number of them. -/
def TimePoint.Whole (t : TimePoint) : Prop := 1000000 ∣ t.nanoseconds.toInt

instance (t : TimePoint) : Decidable t.Whole := inferInstanceAs (Decidable (_ ∣ _))

theorem TimePoint.Whole.ofMilliseconds {t : TimePoint} (whole : t.Whole) : ofMilliseconds t.milliseconds = t := by
  obtain ⟨ms, multiple⟩ := whole
  have lower := t.nanoseconds.le_toInt
  have upper := t.nanoseconds.toInt_lt
  have million : (1000000 : Int64).toInt = 1000000 := by decide
  have quotient : t.milliseconds.toInt = ms := by
    rw [milliseconds, Int64.toInt_div, million, multiple, Int.mul_tdiv_cancel_left _ (by decide)]
    exact Int.bmod_eq_of_le (by omega) (by omega)
  have back : (t.milliseconds * 1000000).toInt = t.nanoseconds.toInt := by
    rw [Int64.toInt_mul, million, quotient, Int.mul_comm, ← multiple]
    exact Int.bmod_eq_of_le (by omega) (by omega)
  exact congrArg TimePoint.mk (Int64.toInt.inj back)

namespace BinaryReader

variable {α β : Type} [BinarySerializable α] {r : BinaryReader} {rest : Bytes} {result : Except Exn β}

/-- Reading back a value and going on behind it. -/
theorem read_bind [LawfulSerial α] {v : α} {k : α × BinaryReader → Except Exn β} (clean : LawfulSerial.Clean v)
    (h : r.Holds (write v ++ rest)) (next : ∀ r', r'.Holds rest → k (v, r') = result) : (r.read α >>= k) = result := by
  obtain ⟨r', read, holds⟩ := LawfulSerial.read_write v r rest clean h
  rw [read]
  exact next r' holds

theorem timePoint_bind {t : TimePoint} {k : TimePoint × BinaryReader → Except Exn β} (whole : t.Whole)
    (h : r.Holds (write t ++ rest)) (next : ∀ r', r'.Holds rest → k (t, r') = result) :
    (r.read TimePoint >>= k) = result := by
  obtain ⟨r', read, holds⟩ := read_timePoint h
  rw [read, whole.ofMilliseconds]
  exact next r' holds

theorem assertAtEnd_bind {v : β} (h : r.Holds rest) : (r.assertAtEnd >>= fun _ => (.ok v : Except Exn β)) =
    if rest = [] then .ok v else .error .runtimeError := by
  cases rest with
  | nil => rw [h.assertAtEnd]; rfl
  | cons b rest =>
      have length := h.length
      rw [List.length_cons] at length
      rw [assertAtEnd, if_neg (by simp only [atEnd, decide_eq_true_eq]; omega), if_neg (List.cons_ne_nil b rest)]
      rfl

theorem remaining_bind {k : Bytes × BinaryReader → Except Exn β} (h : r.Holds rest)
    (next : ∀ r', k (rest, r') = result) : (r.readRemaining >>= k) = result := by
  rw [h.readRemaining]
  exact next _

end BinaryReader

theorem ClientProtocol.validate_bind {β : Type} {m : ClientRpcMessage} {job : ClientJob} {kind : RpcKind}
    {k : Unit → Except Exn β} (named : m.rpcHeader.job = job) (sort : m.rpcHeader.kind = kind) :
    (validateRpcMessage job kind m >>= k) = k () := by
  rw [validateRpcMessage, if_neg (not_not.2 sort), if_neg (not_not.2 named)]
  rfl

theorem StorageProtocol.validate_bind {β : Type} {m : StorageRpcMessage} {job : StorageJob} {kind : RpcKind}
    {k : Unit → Except Exn β} (named : m.rpcHeader.job = job) (sort : m.rpcHeader.kind = kind) :
    (validateStorageMessage job kind m >>= k) = k () := by
  rw [validateStorageMessage, if_neg (not_not.2 named), if_neg (not_not.2 sort)]
  rfl

/-- The encoder and the decoder of one message kind. -/
structure Codec (Job α : Type) where
  encode : UInt64 → α → Frame
  decode : RpcMessage Job → Except Exn α
  /-- The value with the context that its receiver fills in. -/
  received : RequestContext → α → α
  texts : α → List Bytes
  times : α → List TimePoint

namespace Codec

variable {Job α : Type} [WireEnum Job] [RpcTraits Job] (c : Codec Job α) (value : α)

/-- The values that can travel: no NUL byte in a string, no part of a millisecond in a time point. -/
structure Clean : Prop where
  texts : ∀ text ∈ c.texts value, NulFree text
  times : ∀ time ∈ c.times value, time.Whole

/-- The frame of the value is read back as the value, and no byte can follow its body unnoticed. -/
def Undoes : Prop :=
  ∀ (requestId : UInt64) (sender : NodeIdentity), (c.encode requestId value).buffer.length ≤ maxMessageSize →
    ∃ message, Rpc.readMessage Job ((c.encode requestId value).from sender) = .ok message ∧
      c.decode message = .ok (c.received ⟨requestId, sender⟩ value) ∧
      ∀ extra, extra ≠ [] →
        c.decode { message with body := message.body ++ extra } ≠ .ok (c.received ⟨requestId, sender⟩ value)

/-- The decoder finds the value in the body that the encoder makes of it, and misses it where more follows. -/
structure Finds (job : Job) (kind : RpcKind) (body : Bytes) : Prop where
  frame : ∀ requestId, c.encode requestId value = Rpc.makeFrame requestId job kind body
  proper : kind = .request ∨ kind = .response
  whole : ∀ m : RpcMessage Job, m.rpcHeader.job = job → m.rpcHeader.kind = kind → m.body = body →
    c.decode m = .ok (c.received (.of m) value)
  longer : ∀ (m : RpcMessage Job) extra, m.rpcHeader.job = job → m.rpcHeader.kind = kind → m.body = body ++ extra →
    extra ≠ [] → c.decode m ≠ .ok (c.received (.of m) value)

/-- The frame of the value is read, and its body refused. -/
def Refuses : Prop :=
  ∀ (requestId : UInt64) (sender : NodeIdentity), (c.encode requestId value).buffer.length ≤ maxMessageSize →
    ∃ message e, Rpc.readMessage Job ((c.encode requestId value).from sender) = .ok message ∧ c.decode message = .error e

variable {c value}

/-- What the receiver of the frame has. -/
theorem Finds.receive {job : Job} {kind : RpcKind} {body : Bytes} (finds : c.Finds value job kind body)
    (short : body.length < 2 ^ 31) (requestId : UInt64) (sender : NodeIdentity) :
    ∃ message, Rpc.readMessage Job ((c.encode requestId value).from sender) = .ok message ∧
      message.rpcHeader = ⟨requestId, job, kind⟩ ∧ message.body = body ∧
      c.decode message = .ok (c.received ⟨requestId, sender⟩ value) := by
  rw [finds.frame requestId]
  exact ⟨_, Rpc.readMessage_makeFrame short sender finds.proper, rfl, rfl, finds.whole _ rfl rfl rfl⟩

theorem Finds.undoes {job : Job} {kind : RpcKind} {body : Bytes} (finds : c.Finds value job kind body) : c.Undoes value := by
  intro requestId sender small
  have short : body.length < 2 ^ 31 := by
    rw [finds.frame requestId, Rpc.makeFrame_length, maxMessageSize] at small
    omega
  rw [finds.frame requestId]
  refine ⟨_, Rpc.readMessage_makeFrame short sender finds.proper, finds.whole _ rfl rfl rfl, ?_⟩
  intro extra more
  exact finds.longer { sender, messageHeader := _, rpcHeader := ⟨requestId, job, kind⟩, body := body ++ extra } extra
    rfl rfl rfl more

/-- A decoder that asserts the end of the body. -/
theorem finds_closed {job : Job} {kind : RpcKind} {body : Bytes}
    (frame : ∀ requestId, c.encode requestId value = Rpc.makeFrame requestId job kind body)
    (proper : kind = .request ∨ kind = .response)
    (decodes : ∀ (m : RpcMessage Job) extra, m.rpcHeader.job = job → m.rpcHeader.kind = kind →
      (BinaryReader.start m.body).Holds (body ++ extra) →
      c.decode m = if extra = [] then .ok (c.received (.of m) value) else .error .runtimeError) :
    c.Finds value job kind body := by
  refine ⟨frame, proper, fun m named sort whole => ?_, fun m extra named sort longer more => ?_⟩
  · rw [decodes m [] named sort (by rw [whole, List.append_nil]; exact BinaryReader.holds_start body), if_pos rfl]
  · rw [decodes m extra named sort (longer ▸ BinaryReader.holds_start m.body), if_neg more]
    exact nofun

/-- A decoder that takes the rest of the body as data. -/
theorem finds_raw {job : Job} {kind : RpcKind} {fields data : Bytes} (fill : RpcMessage Job → Bytes → α)
    (frame : ∀ requestId, c.encode requestId value = Rpc.makeFrame requestId job kind (fields ++ data))
    (proper : kind = .request ∨ kind = .response)
    (filled : ∀ (m : RpcMessage Job) data', fill m data' = c.received (.of m) value ↔ data' = data)
    (decodes : ∀ (m : RpcMessage Job) data', m.rpcHeader.job = job → m.rpcHeader.kind = kind →
      (BinaryReader.start m.body).Holds (fields ++ data') → c.decode m = .ok (fill m data')) :
    c.Finds value job kind (fields ++ data) := by
  refine ⟨frame, proper, fun m named sort whole => ?_, fun m extra named sort longer more => ?_⟩
  · rw [decodes m data named sort (whole ▸ BinaryReader.holds_start m.body), (filled m data).2 rfl]
  · rw [List.append_assoc] at longer
    rw [decodes m (data ++ extra) named sort (longer ▸ BinaryReader.holds_start m.body)]
    intro same
    exact more (List.append_right_eq_self.1 ((filled m (data ++ extra)).1 (Except.ok.inj same)))

/-- A value is refused where its decoder fails on the body. -/
theorem refuses_of_body {job : Job} {kind : RpcKind} {body : Bytes}
    (frame : ∀ requestId, c.encode requestId value = Rpc.makeFrame requestId job kind body)
    (proper : kind = .request ∨ kind = .response)
    (bad : ∀ m : RpcMessage Job, m.body = body → (c.decode m).isOk = false) : c.Refuses value := by
  intro requestId sender small
  rw [frame requestId] at small ⊢
  have short : body.length < 2 ^ 31 := by
    rw [Rpc.makeFrame_length, maxMessageSize] at small
    omega
  have failed := bad ⟨sender, (Rpc.makeFrame requestId job kind body).header, ⟨requestId, job, kind⟩, body⟩ rfl
  cases result : c.decode ⟨sender, (Rpc.makeFrame requestId job kind body).header, ⟨requestId, job, kind⟩, body⟩ with
  | error e => exact ⟨_, e, Rpc.readMessage_makeFrame short sender proper, result⟩
  | ok v =>
      rw [result] at failed
      cases failed

end Codec

/-! ## The message kinds -/

/-- The messages between clients and the metadata node. -/
inductive ClientKind where
  | createFileRequest
  | createFileResponse
  | readFileRequest
  | readFileResponse
  | readChunkRequest
  | readChunkResponse
  | writeFileRequest
  | writeFileResponse
  | writeChunkRequest
  | writeChunkResponse
  | removeRequest
  | removeResponse
  | listRequest
  | listResponse
  | makeDirRequest
  | makeDirResponse
  | renameRequest
  | renameResponse
  | statRequest
  | statResponse
  deriving DecidableEq

namespace ClientKind

open ClientProtocol

@[reducible] def Value : ClientKind → Type
  | createFileRequest => CreateFileRequest
  | createFileResponse => CreateFileResponse
  | readFileRequest => ReadFileRequest
  | readFileResponse => ReadFileResponse
  | readChunkRequest => ReadChunkRequest
  | readChunkResponse => ReadChunkResponse
  | writeFileRequest => WriteFileRequest
  | writeFileResponse => WriteFileResponse
  | writeChunkRequest => WriteChunkRequest
  | writeChunkResponse => WriteChunkResponse
  | removeRequest => RemoveRequest
  | removeResponse => RemoveResponse
  | listRequest => ListRequest
  | listResponse => ListResponse
  | makeDirRequest => MakeDirRequest
  | makeDirResponse => MakeDirResponse
  | renameRequest => RenameRequest
  | renameResponse => RenameResponse
  | statRequest => StatRequest
  | statResponse => StatResponse

/-- The requests; their strings are the paths. -/
def isRequest : ClientKind → Bool
  | createFileRequest | readFileRequest | readChunkRequest | writeFileRequest | writeChunkRequest | removeRequest
  | listRequest | makeDirRequest | renameRequest | statRequest => true
  | _ => false

def codec : (kind : ClientKind) → Codec ClientJob kind.Value
  | createFileRequest =>
      ⟨encodeCreateFileRequest, decodeCreateFileRequest, fun context v => { v with context }, fun v => [v.path], fun _ => []⟩
  | createFileResponse =>
      ⟨encodeCreateFileResponse, decodeCreateFileResponse, fun context v => { v with context }, fun _ => [], fun _ => []⟩
  | readFileRequest =>
      ⟨encodeReadFileRequest, decodeReadFileRequest, fun context v => { v with context }, fun v => [v.path], fun _ => []⟩
  | readFileResponse =>
      ⟨encodeReadFileResponse, decodeReadFileResponse, fun context v => { v with context }, fun _ => [], fun _ => []⟩
  | readChunkRequest =>
      ⟨encodeReadChunkRequest, decodeReadChunkRequest, fun context v => { v with context }, fun _ => [], fun _ => []⟩
  | readChunkResponse =>
      ⟨encodeReadChunkResponse, decodeReadChunkResponse, fun context v => { v with context }, fun _ => [], fun _ => []⟩
  | writeFileRequest =>
      ⟨encodeWriteFileRequest, decodeWriteFileRequest, fun context v => { v with context }, fun v => [v.path], fun _ => []⟩
  | writeFileResponse =>
      ⟨encodeWriteFileResponse, decodeWriteFileResponse, fun context v => { v with context }, fun _ => [], fun _ => []⟩
  | writeChunkRequest =>
      ⟨encodeWriteChunkRequest, decodeWriteChunkRequest, fun context v => { v with context }, fun _ => [], fun _ => []⟩
  | writeChunkResponse =>
      ⟨encodeWriteChunkResponse, decodeWriteChunkResponse, fun context v => { v with context }, fun _ => [], fun _ => []⟩
  | removeRequest =>
      ⟨encodeRemoveRequest, decodeRemoveRequest, fun context v => { v with context }, fun v => [v.path], fun _ => []⟩
  | removeResponse => ⟨encodeRemoveResponse, decodeRemoveResponse, fun _ v => v, fun _ => [], fun _ => []⟩
  | listRequest =>
      ⟨encodeListRequest, decodeListRequest, fun context v => { v with context }, fun v => [v.path], fun _ => []⟩
  | listResponse =>
      ⟨encodeListResponse, decodeListResponse, fun context v => { v with context }, fun v => v.infoVec.map (·.path),
        fun _ => []⟩
  | makeDirRequest =>
      ⟨encodeMakeDirRequest, decodeMakeDirRequest, fun context v => { v with context }, fun v => [v.path], fun _ => []⟩
  | makeDirResponse =>
      ⟨encodeMakeDirResponse, decodeMakeDirResponse, fun context v => { v with context }, fun _ => [], fun _ => []⟩
  | renameRequest =>
      ⟨encodeRenameRequest, decodeRenameRequest, fun context v => { v with context }, fun v => [v.oldPath, v.newPath],
        fun _ => []⟩
  | renameResponse =>
      ⟨encodeRenameResponse, decodeRenameResponse, fun context v => { v with context }, fun _ => [], fun _ => []⟩
  | statRequest =>
      ⟨encodeStatRequest, decodeStatRequest, fun context v => { v with context }, fun v => [v.path], fun _ => []⟩
  | statResponse =>
      ⟨encodeStatResponse, decodeStatResponse, fun context v => { v with context },
        fun v => [v.stat.path, v.stat.storageNodes.1, v.stat.storageNodes.2, v.stat.objectId],
        fun v => [v.stat.createdAt, v.stat.modifiedAt]⟩

end ClientKind

/-- The messages between the metadata node and the storage nodes. -/
inductive StorageKind where
  | putRequest
  | putResponse
  | getRequest
  | getResponse
  | deleteRequest
  | deleteResponse
  deriving DecidableEq

namespace StorageKind

open StorageProtocol

@[reducible] def Value : StorageKind → Type
  | putRequest => PutRequest
  | putResponse => PutResponse
  | getRequest => GetRequest
  | getResponse => GetResponse
  | deleteRequest => DeleteRequest
  | deleteResponse => DeleteResponse

def codec : (kind : StorageKind) → Codec StorageJob kind.Value
  | putRequest => ⟨encodePutRequest, decodePutRequest, fun context v => { v with context }, fun v => [v.objectId], fun _ => []⟩
  | putResponse => ⟨encodePutResponse, decodePutResponse, fun _ v => v, fun _ => [], fun _ => []⟩
  | getRequest => ⟨encodeGetRequest, decodeGetRequest, fun context v => { v with context }, fun v => [v.objectId], fun _ => []⟩
  | getResponse => ⟨encodeGetResponse, decodeGetResponse, fun _ v => v, fun _ => [], fun _ => []⟩
  | deleteRequest =>
      ⟨encodeDeleteRequest, decodeDeleteRequest, fun context v => { v with context }, fun v => [v.objectId], fun _ => []⟩
  | deleteResponse => ⟨encodeDeleteResponse, decodeDeleteResponse, fun _ v => v, fun _ => [], fun _ => []⟩

end StorageKind

/-! ## What the decoders of the client protocol find -/

namespace ClientKind

open ClientProtocol

/-- The messages whose body is one field. -/
theorem finds_one {α β : Type} [BinarySerializable β] [LawfulSerial β] {c : Codec ClientJob α} {value : α} {job : ClientJob}
    {kind : RpcKind} {field : β} (make : RequestContext → β → α) (clean : LawfulSerial.Clean field)
    (frame : ∀ requestId, c.encode requestId value = Rpc.makeFrame requestId job kind (write field))
    (proper : kind = .request ∨ kind = .response) (made : ∀ context, make context field = c.received context value)
    (decodes : c.decode = fun m => (do
      validateRpcMessage job kind m
      let (field, reader) ← (BinaryReader.start m.body).read β
      reader.assertAtEnd
      return make (.of m) field)) :
    c.Finds value job kind (write field) := by
  refine Codec.finds_closed frame proper fun m extra named sort h => ?_
  rw [decodes]
  refine (validate_bind named sort).trans ?_
  refine BinaryReader.read_bind clean h fun r h => ?_
  rw [← made]
  exact BinaryReader.assertAtEnd_bind h

theorem finds_readFileResponse (value : ReadFileResponse) : (codec readFileResponse).Finds value .readFile .response
    (write value.status ++ (write value.fileSize ++ write value.chunkCount)) := by
  refine Codec.finds_closed (fun _ => rfl) (.inr rfl) fun m extra named sort h => ?_
  simp only [List.append_assoc] at h
  refine (validate_bind named sort).trans ?_
  refine BinaryReader.read_bind trivial h fun r h => ?_
  refine BinaryReader.read_bind trivial h fun r h => ?_
  refine BinaryReader.read_bind trivial h fun r h => ?_
  exact BinaryReader.assertAtEnd_bind h

theorem finds_readChunkResponse (value : ReadChunkResponse) : (codec readChunkResponse).Finds value .readChunk .response
    (write value.chunkIndex ++ (write value.status ++ value.data)) := by
  rw [← List.append_assoc]
  refine Codec.finds_raw (fun m data => { value with data, context := .of m }) (fun _ => ?_) (.inr rfl) (fun m data => ?_)
    fun m data named sort h => ?_
  · rw [List.append_assoc]
    rfl
  · exact ⟨congrArg ReadChunkResponse.data, fun same => same ▸ rfl⟩
  · rw [List.append_assoc] at h
    refine (validate_bind named sort).trans ?_
    refine BinaryReader.read_bind trivial h fun r h => ?_
    refine BinaryReader.read_bind trivial h fun r h => ?_
    exact BinaryReader.remaining_bind h fun r => rfl

theorem finds_writeFileRequest {value : WriteFileRequest} (clean : NulFree value.path) :
    (codec writeFileRequest).Finds value .writeFile .request
      (write value.fileSize ++ (write value.chunkCount ++ write value.path)) := by
  refine Codec.finds_closed (fun _ => rfl) (.inl rfl) fun m extra named sort h => ?_
  simp only [List.append_assoc] at h
  refine (validate_bind named sort).trans ?_
  refine BinaryReader.read_bind trivial h fun r h => ?_
  refine BinaryReader.read_bind trivial h fun r h => ?_
  refine BinaryReader.read_bind clean h fun r h => ?_
  exact BinaryReader.assertAtEnd_bind h

theorem finds_writeChunkRequest (value : WriteChunkRequest) : (codec writeChunkRequest).Finds value .writeChunk .request
    (write value.chunkIndex ++ value.data) := by
  refine Codec.finds_raw (fun m data => { value with data, context := .of m }) (fun _ => rfl) (.inl rfl) (fun m data => ?_)
    fun m data named sort h => ?_
  · exact ⟨congrArg WriteChunkRequest.data, fun same => same ▸ rfl⟩
  · refine (validate_bind named sort).trans ?_
    refine BinaryReader.read_bind trivial h fun r h => ?_
    exact BinaryReader.remaining_bind h fun r => rfl

theorem finds_writeChunkResponse (value : WriteChunkResponse) : (codec writeChunkResponse).Finds value .writeChunk .response
    (write value.chunkIndex ++ write value.status) := by
  refine Codec.finds_closed (fun _ => rfl) (.inr rfl) fun m extra named sort h => ?_
  rw [List.append_assoc] at h
  refine (validate_bind named sort).trans ?_
  refine BinaryReader.read_bind trivial h fun r h => ?_
  refine BinaryReader.read_bind trivial h fun r h => ?_
  exact BinaryReader.assertAtEnd_bind h

theorem finds_renameRequest {value : RenameRequest} (cleanOld : NulFree value.oldPath) (cleanNew : NulFree value.newPath) :
    (codec renameRequest).Finds value .rename .request (write value.oldPath ++ write value.newPath) := by
  refine Codec.finds_closed (fun _ => rfl) (.inl rfl) fun m extra named sort h => ?_
  rw [List.append_assoc] at h
  refine (validate_bind named sort).trans ?_
  refine BinaryReader.read_bind cleanOld h fun r h => ?_
  refine BinaryReader.read_bind cleanNew h fun r h => ?_
  exact BinaryReader.assertAtEnd_bind h

/-- The loop of a listing reads back the entries it was written from. -/
theorem readInfos_bind {β : Type} {infos : List FileInfo} {r : BinaryReader} {rest : Bytes} {result : Except Exn β}
    {k : List FileInfo × BinaryReader → Except Exn β} (clean : ∀ info ∈ infos, NulFree info.path)
    (h : r.Holds (infos.flatMap (fun info => write info.path ++ write info.isDirectory) ++ rest))
    (next : ∀ r', r'.Holds rest → k (infos, r') = result) : (readInfos infos.length r >>= k) = result := by
  obtain ⟨r', read, holds⟩ : ∃ r', readInfos infos.length r = .ok (infos, r') ∧ r'.Holds rest := by
    clear next
    induction infos generalizing r with
    | nil => exact ⟨r, rfl, h⟩
    | cons info infos ih =>
        rw [List.flatMap_cons, List.append_assoc, List.append_assoc] at h
        obtain ⟨r1, read1, h1⟩ := LawfulSerial.read_write info.path r _ (clean info (.head _)) h
        obtain ⟨r2, read2, h2⟩ := LawfulSerial.read_write info.isDirectory r1 _ trivial h1
        obtain ⟨r3, read3, h3⟩ := ih (fun info mem => clean info (.tail _ mem)) h2
        exact ⟨r3, by simp only [List.length_cons, readInfos, bind, Except.bind, read1, read2, read3]; rfl, h3⟩
  rw [read]
  exact next r' holds

theorem finds_listResponse {value : ListResponse} (clean : ∀ info ∈ value.infoVec, NulFree info.path)
    (small : value.infoVec.length < 2 ^ 31) : (codec listResponse).Finds value .list .response
      (write value.status ++ (write (UInt32.ofNat value.infoVec.length) ++
        value.infoVec.flatMap fun info => write info.path ++ write info.isDirectory)) := by
  refine Codec.finds_closed (fun _ => rfl) (.inr rfl) fun m extra named sort h => ?_
  simp only [List.append_assoc] at h
  have size : (UInt32.ofNat value.infoVec.length).toNat = value.infoVec.length := UInt32.toNat_ofNat_of_lt' (Nat.lt_trans small (by decide))
  refine (validate_bind named sort).trans ?_
  refine BinaryReader.read_bind trivial h fun r h => ?_
  refine BinaryReader.read_bind trivial h fun r h => ?_
  simp only [size, if_pos small, Nat.sub_self, List.replicate_zero, List.append_nil]
  refine readInfos_bind clean h fun r h => ?_
  exact BinaryReader.assertAtEnd_bind h

theorem finds_statResponse {value : StatResponse} (clean : (codec statResponse).Clean value) :
    (codec statResponse).Finds value .stat .response
      (write value.status ++ (write value.stat.path ++ (write value.stat.isDirectory ++
        (write value.stat.storageNodes.1 ++ (write value.stat.storageNodes.2 ++ (write value.stat.objectId ++
          (write value.stat.size ++ (write value.stat.createdAt ++ write value.stat.modifiedAt)))))))) := by
  have texts := clean.texts
  have times := clean.times
  simp only [codec, List.forall_mem_cons] at texts times
  obtain ⟨path, node0, node1, objectId, -⟩ := texts
  obtain ⟨createdAt, modifiedAt, -⟩ := times
  refine Codec.finds_closed (fun _ => rfl) (.inr rfl) fun m extra named sort h => ?_
  simp only [List.append_assoc] at h
  refine (validate_bind named sort).trans ?_
  refine BinaryReader.read_bind trivial h fun r h => ?_
  refine BinaryReader.read_bind path h fun r h => ?_
  refine BinaryReader.read_bind trivial h fun r h => ?_
  refine BinaryReader.read_bind node0 h fun r h => ?_
  refine BinaryReader.read_bind node1 h fun r h => ?_
  refine BinaryReader.read_bind objectId h fun r h => ?_
  refine BinaryReader.read_bind trivial h fun r h => ?_
  refine BinaryReader.timePoint_bind createdAt h fun r h => ?_
  refine BinaryReader.timePoint_bind modifiedAt h fun r h => ?_
  exact BinaryReader.assertAtEnd_bind h

/-- Each entry of a listing takes two bytes at least. -/
theorem infos_length_le (infos : List FileInfo) :
    2 * infos.length ≤ (infos.flatMap fun info => write info.path ++ write info.isDirectory).length := by
  induction infos with
  | nil => exact Nat.zero_le _
  | cons info infos ih =>
      rw [List.flatMap_cons, List.length_append, List.length_cons]
      have entry : 2 ≤ (write info.path ++ write info.isDirectory).length := by
        simp [write]
      omega

/-- Each decoder of the client protocol finds what its encoder wrote. -/
theorem finds (kind : ClientKind) (value : kind.Value) (clean : kind.codec.Clean value) (requestId : UInt64)
    (small : (kind.codec.encode requestId value).buffer.length ≤ maxMessageSize) :
    ∃ job sort body, kind.codec.Finds value job sort body := by
  have texts := clean.texts
  cases kind with
  | createFileRequest =>
      exact ⟨_, _, _, finds_one (fun context path => ⟨path, context⟩) (texts _ (.head _)) (fun _ => rfl) (.inl rfl)
        (fun _ => rfl) rfl⟩
  | createFileResponse =>
      exact ⟨_, _, _, finds_one (fun context status => ⟨status, context⟩) trivial (fun _ => rfl) (.inr rfl)
        (fun _ => rfl) rfl⟩
  | readFileRequest =>
      exact ⟨_, _, _, finds_one (fun context path => ⟨path, context⟩) (texts _ (.head _)) (fun _ => rfl) (.inl rfl)
        (fun _ => rfl) rfl⟩
  | readFileResponse => exact ⟨_, _, _, finds_readFileResponse value⟩
  | readChunkRequest =>
      exact ⟨_, _, _, finds_one (fun context chunkIndex => ⟨chunkIndex, context⟩) trivial (fun _ => rfl) (.inl rfl)
        (fun _ => rfl) rfl⟩
  | readChunkResponse => exact ⟨_, _, _, finds_readChunkResponse value⟩
  | writeFileRequest => exact ⟨_, _, _, finds_writeFileRequest (texts _ (.head _))⟩
  | writeFileResponse =>
      exact ⟨_, _, _, finds_one (fun context status => ⟨status, context⟩) trivial (fun _ => rfl) (.inr rfl)
        (fun _ => rfl) rfl⟩
  | writeChunkRequest => exact ⟨_, _, _, finds_writeChunkRequest value⟩
  | writeChunkResponse => exact ⟨_, _, _, finds_writeChunkResponse value⟩
  | removeRequest =>
      exact ⟨_, _, _, finds_one (fun context path => ⟨path, context⟩) (texts _ (.head _)) (fun _ => rfl) (.inl rfl)
        (fun _ => rfl) rfl⟩
  | removeResponse =>
      exact ⟨_, _, _, finds_one (fun _ status => ⟨status⟩) trivial (fun _ => rfl) (.inr rfl) (fun _ => rfl) rfl⟩
  | listRequest =>
      exact ⟨_, _, _, finds_one (fun context path => ⟨path, context⟩) (texts _ (.head _)) (fun _ => rfl) (.inl rfl)
        (fun _ => rfl) rfl⟩
  | listResponse =>
      refine ⟨_, _, _, finds_listResponse (fun info mem => texts _ (List.mem_map_of_mem mem)) ?_⟩
      have entries := infos_length_le value.infoVec
      simp only [codec, encodeListResponse, Rpc.makeFrame_length, List.length_append, maxMessageSize] at small
      omega
  | makeDirRequest =>
      exact ⟨_, _, _, finds_one (fun context path => ⟨path, context⟩) (texts _ (.head _)) (fun _ => rfl) (.inl rfl)
        (fun _ => rfl) rfl⟩
  | makeDirResponse =>
      exact ⟨_, _, _, finds_one (fun context status => ⟨status, context⟩) trivial (fun _ => rfl) (.inr rfl)
        (fun _ => rfl) rfl⟩
  | renameRequest => exact ⟨_, _, _, finds_renameRequest (texts _ (.head _)) (texts _ (.tail _ (.head _)))⟩
  | renameResponse =>
      exact ⟨_, _, _, finds_one (fun context status => ⟨status, context⟩) trivial (fun _ => rfl) (.inr rfl)
        (fun _ => rfl) rfl⟩
  | statRequest =>
      exact ⟨_, _, _, finds_one (fun context path => ⟨path, context⟩) (texts _ (.head _)) (fun _ => rfl) (.inl rfl)
        (fun _ => rfl) rfl⟩
  | statResponse => exact ⟨_, _, _, finds_statResponse clean⟩

end ClientKind

/-! ## What the decoders of the storage protocol find -/

namespace StorageKind

open StorageProtocol

theorem finds_putRequest {value : PutRequest} (clean : NulFree value.objectId) :
    (codec putRequest).Finds value .put .request
      (write value.objectId ++ (write value.chunkIndex ++ (write value.finalChunk ++ value.data))) := by
  simp only [← List.append_assoc]
  refine Codec.finds_raw (fun m data => { value with data, context := .of m }) (fun _ => ?_) (.inl rfl) (fun m data => ?_)
    fun m data named sort h => ?_
  · simp only [List.append_assoc]
    rfl
  · exact ⟨congrArg PutRequest.data, fun same => same ▸ rfl⟩
  · simp only [List.append_assoc] at h
    refine (validate_bind named sort).trans ?_
    refine BinaryReader.read_bind clean h fun r h => ?_
    refine BinaryReader.read_bind trivial h fun r h => ?_
    refine BinaryReader.read_bind trivial h fun r h => ?_
    exact BinaryReader.remaining_bind h fun r => rfl

theorem finds_putResponse (value : PutResponse) : (codec putResponse).Finds value .put .response
    (write value.chunkIndex ++ (write value.sizeAvailable ++ write value.status)) := by
  refine Codec.finds_closed (fun _ => rfl) (.inr rfl) fun m extra named sort h => ?_
  simp only [List.append_assoc] at h
  refine (validate_bind named sort).trans ?_
  refine BinaryReader.read_bind trivial h fun r h => ?_
  refine BinaryReader.read_bind trivial h fun r h => ?_
  refine BinaryReader.read_bind trivial h fun r h => ?_
  exact BinaryReader.assertAtEnd_bind h

theorem finds_getRequest {value : GetRequest} (clean : NulFree value.objectId) :
    (codec getRequest).Finds value .get .request
      (write value.objectId ++ (write value.chunkIndex ++ write value.byteCount)) := by
  refine Codec.finds_closed (fun _ => rfl) (.inl rfl) fun m extra named sort h => ?_
  simp only [List.append_assoc] at h
  refine (validate_bind named sort).trans ?_
  refine BinaryReader.read_bind clean h fun r h => ?_
  refine BinaryReader.read_bind trivial h fun r h => ?_
  refine BinaryReader.read_bind trivial h fun r h => ?_
  exact BinaryReader.assertAtEnd_bind h

theorem finds_getResponse (value : GetResponse) : (codec getResponse).Finds value .get .response
    (write value.chunkIndex ++ (write value.status ++ value.data)) := by
  rw [← List.append_assoc]
  refine Codec.finds_raw (fun m data => { value with data }) (fun _ => ?_) (.inr rfl) (fun m data => ?_)
    fun m data named sort h => ?_
  · rw [List.append_assoc]
    rfl
  · exact ⟨congrArg GetResponse.data, fun same => same ▸ rfl⟩
  · rw [List.append_assoc] at h
    refine (validate_bind named sort).trans ?_
    refine BinaryReader.read_bind trivial h fun r h => ?_
    refine BinaryReader.read_bind trivial h fun r h => ?_
    exact BinaryReader.remaining_bind h fun r => rfl

theorem finds_deleteRequest {value : DeleteRequest} (clean : NulFree value.objectId) :
    (codec deleteRequest).Finds value .delete .request (write value.objectId) := by
  refine Codec.finds_closed (fun _ => rfl) (.inl rfl) fun m extra named sort h => ?_
  refine (validate_bind named sort).trans ?_
  refine BinaryReader.read_bind clean h fun r h => ?_
  exact BinaryReader.assertAtEnd_bind h

theorem finds_deleteResponse (value : DeleteResponse) :
    (codec deleteResponse).Finds value .delete .response (write value.status) := by
  refine Codec.finds_closed (fun _ => rfl) (.inr rfl) fun m extra named sort h => ?_
  refine (validate_bind named sort).trans ?_
  refine BinaryReader.read_bind trivial h fun r h => ?_
  exact BinaryReader.assertAtEnd_bind h

/-- A reply to a `PUT` as its reader has it. -/
theorem receive_putResponse {requestId : UInt64} {sender : NodeIdentity} {response : PutResponse} :
    (Rpc.readMessage StorageJob ((encodePutResponse requestId response).from sender) >>= decodePutResponse) =
      .ok response := by
  obtain ⟨message, read, -, -, decoded⟩ := (finds_putResponse response).receive (by simp [write]) requestId sender
  change Rpc.readMessage StorageJob ((encodePutResponse requestId response).from sender) = _ at read
  rw [read]
  exact decoded

/-- Each decoder of the storage protocol finds what its encoder wrote. -/
theorem finds (kind : StorageKind) (value : kind.Value) (clean : kind.codec.Clean value) :
    ∃ job sort body, kind.codec.Finds value job sort body := by
  have texts := clean.texts
  cases kind with
  | putRequest => exact ⟨_, _, _, finds_putRequest (texts _ (.head _))⟩
  | putResponse => exact ⟨_, _, _, finds_putResponse value⟩
  | getRequest => exact ⟨_, _, _, finds_getRequest (texts _ (.head _))⟩
  | getResponse => exact ⟨_, _, _, finds_getResponse value⟩
  | deleteRequest => exact ⟨_, _, _, finds_deleteRequest (texts _ (.head _))⟩
  | deleteResponse => exact ⟨_, _, _, finds_deleteResponse value⟩

end StorageKind

/-! ## Paths with a NUL byte -/

theorem Field.count_of_skip {bytes rest : Bytes} (skipped : Field.text.skip bytes = some rest) :
    bytes.count 0 = rest.count 0 + 1 := by
  simp only [Field.skip, Option.ite_none_right_eq_some, Option.some.injEq] at skipped
  obtain ⟨some, rfl⟩ := skipped
  have none : (bytes.takeWhile (· ≠ 0)).count 0 = 0 :=
    List.count_eq_zero.2 fun mem => by simpa using List.mem_takeWhile_imp mem
  have split := congrArg (List.count 0) (List.takeWhile_append_dropWhile (p := fun b : UInt8 => decide (b ≠ 0)) (l := bytes))
  rw [List.count_append, none, Nat.zero_add] at split
  cases behind : bytes.dropWhile (· ≠ 0) with
  | nil => exact absurd (List.dropWhile_eq_nil_iff.1 behind 0 some) (by decide)
  | cons b rest =>
      have zero : b = 0 := by
        have head := List.head?_dropWhile_not (fun b : UInt8 => decide (b ≠ 0)) bytes
        rw [behind] at head
        simpa using head
      rw [← split, behind, zero, List.count_cons_self, List.tail_cons]

/-- Strings fit exactly if there are as many NUL bytes. -/
theorem count_of_fits {n : Nat} {bytes : Bytes} (fit : fits false (List.replicate n .text) bytes = true) :
    bytes.count 0 = n := by
  induction n generalizing bytes with
  | zero =>
      have nothing : bytes = [] := by simpa [fits] using fit
      rw [nothing, List.count_nil]
  | succ n ih =>
      rw [List.replicate_succ, fits] at fit
      cases skipped : Field.text.skip bytes with
      | none => simp [skipped] at fit
      | some rest =>
          rw [skipped] at fit
          rw [Field.count_of_skip skipped, ih fit]

theorem count_write (path : Bytes) : (write path).count 0 = path.count 0 + 1 := by
  simp [write, List.count_append]

theorem fits_word {raw : Bool} {width : Nat} {fields : List Field} {part rest : Bytes} (wide : part.length = width) :
    fits raw (.word width :: fields) (part ++ rest) = fits raw fields rest := by
  rw [fits, Field.skip, if_pos (by rw [List.length_append, wide]; exact Nat.le_add_right _ _), List.drop_left' wide]

namespace ClientKind

open ClientProtocol

theorem path_misfits {path : Bytes} (nul : 0 ∈ path) : fits false [.text] (write path) = false := by
  by_contra fit
  have count := @count_of_fits 1 _ (Bool.not_eq_false _ ▸ fit)
  have some := List.count_pos_iff.2 nul
  rw [count_write] at count
  omega

/-- Each request that carries paths is refused where one of them has a NUL byte. -/
theorem refuses (kind : ClientKind) (value : kind.Value) (request : kind.isRequest = true)
    (nul : ∃ path ∈ kind.codec.texts value, 0 ∈ path) : kind.codec.Refuses value := by
  obtain ⟨path, mem, nul⟩ := nul
  have one : ∀ {path' : Bytes}, path ∈ [path'] → fits false [.text] (write path') = false := fun mem =>
    path_misfits (List.mem_singleton.1 mem ▸ nul)
  cases kind with
  | createFileRequest =>
      refine Codec.refuses_of_body (fun _ => rfl) (.inl rfl) fun m body => ?_
      exact decodeCreateFileRequest_isOk.trans (by rw [body, one mem, Bool.and_false])
  | readFileRequest =>
      refine Codec.refuses_of_body (fun _ => rfl) (.inl rfl) fun m body => ?_
      exact decodeReadFileRequest_isOk.trans (by rw [body, one mem, Bool.and_false])
  | readChunkRequest => cases mem
  | writeFileRequest =>
      refine Codec.refuses_of_body (fun _ => rfl) (.inl rfl) fun m body => ?_
      have chunkCount : (write value.chunkCount).length = 4 := length_toBytes 4 _
      exact decodeWriteFileRequest_isOk.trans
        (by rw [body, fits_word (write_word_length value.fileSize), fits_word chunkCount, one mem, Bool.and_false])
  | writeChunkRequest => cases mem
  | removeRequest =>
      refine Codec.refuses_of_body (fun _ => rfl) (.inl rfl) fun m body => ?_
      exact decodeRemoveRequest_isOk.trans (by rw [body, one mem, Bool.and_false])
  | listRequest =>
      refine Codec.refuses_of_body (fun _ => rfl) (.inl rfl) fun m body => ?_
      exact decodeListRequest_isOk.trans (by rw [body, one mem, Bool.and_false])
  | makeDirRequest =>
      refine Codec.refuses_of_body (fun _ => rfl) (.inl rfl) fun m body => ?_
      exact decodeMakeDirRequest_isOk.trans (by rw [body, one mem, Bool.and_false])
  | renameRequest =>
      refine Codec.refuses_of_body (fun _ => rfl) (.inl rfl) fun m body => ?_
      have misfit : fits false [.text, .text] (write value.oldPath ++ write value.newPath) = false := by
        by_contra fit
        have count := @count_of_fits 2 _ (Bool.not_eq_false _ ▸ fit)
        rw [List.count_append, count_write, count_write] at count
        have some := List.count_pos_iff.2 nul
        have which : path = value.oldPath ∨ path = value.newPath := by simpa [codec] using mem
        rcases which with rfl | rfl <;> omega
      exact decodeRenameRequest_isOk.trans (by rw [body, misfit, Bool.and_false])
  | statRequest =>
      refine Codec.refuses_of_body (fun _ => rfl) (.inl rfl) fun m body => ?_
      exact decodeStatRequest_isOk.trans (by rw [body, one mem, Bool.and_false])
  | _ => cases request

end ClientKind

/-! ## The whole wire protocol -/

/-- Decoding undoes encoding for every message that can travel, and a request for a path that
cannot is never taken for one for other paths. -/
theorem decode_encode :
    (∀ (kind : ClientKind) (value : kind.Value), kind.codec.Clean value → kind.codec.Undoes value) ∧
      (∀ (kind : StorageKind) (value : kind.Value), kind.codec.Clean value → kind.codec.Undoes value) ∧
      ∀ (kind : ClientKind) (value : kind.Value), kind.isRequest = true →
        (∃ path ∈ kind.codec.texts value, 0 ∈ path) → kind.codec.Refuses value := by
  refine ⟨fun kind value clean requestId sender small => ?_, fun kind value clean => ?_, ClientKind.refuses⟩
  · obtain ⟨job, sort, body, finds⟩ := kind.finds value clean requestId small
    exact finds.undoes requestId sender small
  · obtain ⟨job, sort, body, finds⟩ := kind.finds value clean
    exact finds.undoes

/-- The answer to a `STAT`, and a `RENAME` to a name with a NUL byte in it. -/
theorem decode_encode_stat :
    let context : RequestContext := ⟨7, ⟨[99], .client⟩⟩
    let stat : StatResponse :=
      { status := .success
        stat := ⟨[47, 97], false, ([115], [116]), [111], 5, ⟨3000000⟩, ⟨-2000000⟩⟩
        context }
    (∃ message, Rpc.readMessage ClientJob ((ClientProtocol.encodeStatResponse 9 stat).from context.sender) = .ok message ∧
      ClientProtocol.decodeStatResponse message = .ok { stat with context := ⟨9, context.sender⟩ }) ∧
    ∃ message e, Rpc.readMessage ClientJob
        ((ClientProtocol.encodeRenameRequest 9 ⟨[47, 97], [47, 0, 98], context⟩).from context.sender) = .ok message ∧
      ClientProtocol.decodeRenameRequest message = .error e := by
  intro context stat
  have clean : (ClientKind.codec .statResponse).Clean stat := ⟨by decide, by decide⟩
  obtain ⟨message, read, decoded, -⟩ := decode_encode.1 .statResponse stat clean 9 context.sender (by decide)
  exact ⟨⟨message, read, decoded⟩, decode_encode.2.2 .renameRequest ⟨[47, 97], [47, 0, 98], context⟩ rfl
    ⟨[47, 0, 98], .tail _ (.head _), by decide⟩ 9 context.sender (by decide)⟩

end Dfs
