import Dfs.Lib.Nested
import Dfs.Common.Network
import Dfs.Common.ObjectId
import Dfs.Common.StorageProtocol
import Dfs.Metadata.MetadataStore
import Mathlib.Data.List.Sort

/-!
# The metadata worker (`MetadataWorker.cpp`)

One handler for each client request. A handler runs to its end before the next one starts;
in between it may wait for storage nodes through `Network.receiveIf`. A handler that lets an
exception out ends the process.
-/

namespace Dfs

open Lib

structure StorageNodeInfo where
  lastSeen : TimePoint
  bytesLeft : UInt64
  available : Bool := true
  deriving DecidableEq

structure PendingRead where
  path : Bytes
  objectId : Bytes
  fileSize : UInt64
  chunkCount : UInt32
  nextChunk : UInt32
  replicas : NodeId × NodeId
  deriving DecidableEq

structure PendingWrite where
  path : Bytes
  objectId : Bytes
  fileSize : UInt64
  chunkCount : UInt32
  nextChunk : UInt32
  replicas : NodeId × NodeId
  deriving DecidableEq

inductive ClientEvent where
  | createFile (req : CreateFileRequest)
  | readFile (req : ReadFileRequest)
  | readChunk (req : ReadChunkRequest)
  | writeFile (req : WriteFileRequest)
  | writeChunk (req : WriteChunkRequest)
  | remove (req : RemoveRequest)
  | list (req : ListRequest)
  | makeDir (req : MakeDirRequest)
  | rename (req : RenameRequest)
  | stat (req : StatRequest)
  deriving DecidableEq

/-- What a handler gets from outside: the clock, the next outputs of the random generator and
what becomes of its file calls. -/
structure Env where
  now : TimePoint := ⟨0⟩
  first : UInt64 := 0
  second : UInt64 := 0
  outcomes : List Outcome := []

def Env.objectId (env : Env) : Bytes := ObjectId.generate env.first env.second

structure MetadataWorker where
  store : MetadataStore
  storageNodes : Assoc NodeId StorageNodeInfo
  pendingReads : Nested NodeId UInt64 PendingRead
  pendingWrites : Nested NodeId UInt64 PendingWrite
  currentStorageRequestId : UInt64

/-- A worker with its network. -/
structure MetadataState (ν : Type) where
  worker : MetadataWorker
  network : ν

/-- `CHUNK_SIZE` where the code computes with 64-bit integers. -/
def chunkSize64 : UInt64 := 524288

/-- `size / CHUNK_SIZE + (size % CHUNK_SIZE != 0)` -/
def chunksOf (size : UInt64) : UInt64 := size / chunkSize64 + if size % chunkSize64 ≠ 0 then 1 else 0

/-- The length that chunk `chunkIndex` of a file must have. -/
def expectedSize (fileSize : UInt64) (chunkIndex : UInt32) : UInt64 :=
  min chunkSize64 (fileSize - chunkIndex.toUInt64 * chunkSize64)

/-- No chunk is larger than `CHUNK_SIZE`. -/
theorem expectedSize_le (fileSize : UInt64) (chunkIndex : UInt32) : (expectedSize fileSize chunkIndex).toNat ≤ chunkSize := by
  have le : expectedSize fileSize chunkIndex ≤ chunkSize64 := Std.min_le_left
  exact UInt64.le_iff_toNat_le.1 le

def getClientStatus {α : Type} : Except MetadataStoreError α → ClientStatus
  | .ok _ => .success
  | .error .invalidPath => .inputError
  | .error .alreadyExists => .alreadyExists
  | .error _ => .serverError

/-- One replica is bound and the other is not. -/
def halfBound (replicas : NodeId × NodeId) : Bool := decide (replicas.1 ≠ []) != decide (replicas.2 ≠ [])

/-- One node has both replicas. -/
def doubled (replicas : NodeId × NodeId) : Bool := replicas.1 ≠ [] && replicas.1 = replicas.2

namespace MetadataWorker

def isAvailable (w : MetadataWorker) (node : NodeId) : Bool := (w.storageNodes.lookup node).any (·.available)

/-- The comparison that sorts the candidates: most free bytes first, then by id. -/
def before (w : MetadataWorker) (lhs rhs : NodeId) : Bool :=
  let left : UInt64 := ((w.storageNodes.lookup lhs).map (·.bytesLeft)).getD 0
  let right : UInt64 := ((w.storageNodes.lookup rhs).map (·.bytesLeft)).getD 0
  if left ≠ right then left > right else decide (lhs < rhs)

def candidates (w : MetadataWorker) : List NodeId :=
  (w.storageNodes.keys.filter w.isAvailable).insertionSort fun lhs rhs => w.before lhs rhs = true

/-- The two best candidates. -/
def selectReplicas (w : MetadataWorker) : Option (NodeId × NodeId) :=
  match w.candidates with
  | first :: second :: _ => some (first, second)
  | _ => none

def beingWritten (w : MetadataWorker) (path : Bytes) : Bool :=
  Nested.any w.pendingWrites fun write => write.path = path

def discardWrite (w : MetadataWorker) (context : RequestContext) : MetadataWorker :=
  { w with pendingWrites := Nested.discard w.pendingWrites context.sender.id context.requestId }

def discardRead (w : MetadataWorker) (context : RequestContext) : MetadataWorker :=
  { w with pendingReads := Nested.discard w.pendingReads context.sender.id context.requestId }

def putWrite (w : MetadataWorker) (context : RequestContext) (write : PendingWrite) : MetadataWorker :=
  { w with pendingWrites := Nested.put w.pendingWrites context.sender.id context.requestId write }

def putRead (w : MetadataWorker) (context : RequestContext) (read : PendingRead) : MetadataWorker :=
  { w with pendingReads := Nested.put w.pendingReads context.sender.id context.requestId read }

def findWrite (w : MetadataWorker) (context : RequestContext) : Option PendingWrite :=
  Nested.find w.pendingWrites context.sender.id context.requestId

def findRead (w : MetadataWorker) (context : RequestContext) : Option PendingRead :=
  Nested.find w.pendingReads context.sender.id context.requestId

def setBytesLeft (w : MetadataWorker) (node : NodeId) (bytesLeft : UInt64) : MetadataWorker :=
  match w.storageNodes.lookup node with
  | none => w
  | some info => { w with storageNodes := w.storageNodes.insert node { info with bytesLeft } }

/-- The worker at the start of a request whose file calls turn out as listed. -/
def withOutcomes (w : MetadataWorker) (outcomes : List Outcome) : MetadataWorker :=
  { w with store := { w.store with disk := w.store.disk.withOutcomes outcomes } }

end MetadataWorker

namespace MetadataState

variable {ν : Type} [Network ν]

/-- `storage_request_timeout_` in seconds. -/
def storageRequestTimeout : Nat := 3

def send (node : NodeId) (frame : Frame) (s : MetadataState ν) : MetadataState ν :=
  { s with network := Network.send node frame s.network }

def receiveIf (p : Message → Bool) (s : MetadataState ν) : Option Message × MetadataState ν :=
  let (message, network) := Network.receiveIf storageRequestTimeout p s.network
  (message, { s with network })

omit [Network ν] in
def onStore {α : Type} (f : MetadataStore → α × MetadataStore) (s : MetadataState ν) : α × MetadataState ν :=
  let (result, store) := f s.worker.store
  (result, { s with worker := { s.worker with store } })

def respond (context : RequestContext) (encode : UInt64 → Frame) (s : MetadataState ν) : MetadataState ν :=
  s.send context.sender.id (encode context.requestId)

/-! ## The handlers -/

def handleCreateFile (env : Env) (req : CreateFileRequest) (s : MetadataState ν) : MetadataState ν :=
  let metadata : FileMetadata :=
    { path := req.path, size := 0, objId := env.objectId, replicaLocations := ([], []) }
  let (result, s) := s.onStore (MetadataStore.addMetadata env.now req.path metadata)
  s.respond req.context fun id =>
    ClientProtocol.encodeCreateFileResponse id { status := getClientStatus result, context := req.context }

/-- The part of the `WriteFile` handler that opens a session. -/
def openWrite (req : WriteFileRequest) (objectId : Bytes) (replicas : NodeId × NodeId) (s : MetadataState ν) :
    ClientStatus × MetadataState ν :=
  match s.worker.findWrite req.context with
  | some _ => (.serverError, s)
  | none =>
      let write : PendingWrite :=
        { path := req.path, objectId, fileSize := req.fileSize, chunkCount := req.chunkCount, nextChunk := 0, replicas }
      (.success, { s with worker := s.worker.putWrite req.context write })

/-- The part of the `WriteFile` handler after the record was found or made up. -/
def startWrite (env : Env) (req : WriteFileRequest) (metadata : FileMetadata) (s : MetadataState ν) :
    ClientStatus × MetadataState ν :=
  let replicas := metadata.replicaLocations
  let firstBound := decide (replicas.1 ≠ [])
  if metadata.objId = [] then (.serverError, s)
  else if halfBound replicas then (.serverError, s)
  else if doubled replicas then (.serverError, s)
  else if req.chunkCount = 0 then
    match s.onStore (MetadataStore.updateMetadata env.now req.path { metadata with size := 0 }) with
    | (.ok _, s) => (.success, s)
    | (.error _, s) => (.serverError, s)
  else if firstBound then
    if s.worker.isAvailable replicas.1 && s.worker.isAvailable replicas.2 then
      s.openWrite req metadata.objId replicas
    else (.serverError, s)
  else
    match s.worker.selectReplicas with
    | none => (.serverError, s)
    | some replicas =>
        match s.onStore (MetadataStore.updateMetadata env.now req.path
            { metadata with replicaLocations := replicas }) with
        | (.error _, s) => (.serverError, s)
        | (.ok _, s) => s.openWrite req metadata.objId replicas

def writeFile (env : Env) (req : WriteFileRequest) (s : MetadataState ν) : ClientStatus × MetadataState ν :=
  if chunksOf req.fileSize ≠ req.chunkCount.toUInt64 then (.serverError, s)
  else
    match s.worker.store.getMetadata req.path with
    | .ok metadata => s.startWrite env req metadata
    | .error .notFound =>
        s.startWrite env req
          { path := req.path, size := 0, objId := env.objectId, replicaLocations := ([], []) }
    | .error _ => (.serverError, s)

def handleWriteFile (env : Env) (req : WriteFileRequest) (s : MetadataState ν) : MetadataState ν :=
  let (status, s) := s.writeFile env req
  s.respond req.context fun id => ClientProtocol.encodeWriteFileResponse id { status, context := req.context }

/-- Whether `replica` has answered the `PUT` of `req` with `Success`. -/
def awaitPut (req : WriteChunkRequest) (replica : NodeId) (s : MetadataState ν) :
    Except Exn Bool × MetadataState ν :=
  match s.receiveIf (Rpc.makeMessageIs req.context.requestId StorageJob.put .response replica
      (Rpc.matchChunk req.chunkIndex)) with
  | (none, s) => (.ok false, s)
  | (some message, s) =>
      match Rpc.readMessage StorageJob message >>= StorageProtocol.decodePutResponse with
      | .error e => (.error e, s)
      | .ok response =>
          (.ok (response.status = .success),
            { s with worker := s.worker.setBytesLeft replica response.sizeAvailable })

/-- Both replicas are asked, whatever the first one answers. -/
def awaitPuts (req : WriteChunkRequest) (replicas : NodeId × NodeId) (s : MetadataState ν) :
    Except Exn Bool × MetadataState ν :=
  match s.awaitPut req replicas.1 with
  | (.error e, s) => (.error e, s)
  | (.ok first, s) =>
      match s.awaitPut req replicas.2 with
      | (.error e, s) => (.error e, s)
      | (.ok second, s) => (.ok (first && second), s)

/-- The `PUT` for a chunk of a session. -/
def putOf (req : WriteChunkRequest) (write : PendingWrite) : PutRequest :=
  { objectId := write.objectId
    chunkIndex := req.chunkIndex
    finalChunk := req.chunkIndex + 1 = write.chunkCount
    data := req.data
    context := req.context }

/-- The part of the `WriteChunk` handler after both replicas have the chunk. -/
def acceptChunk (env : Env) (req : WriteChunkRequest) (write : PendingWrite) (s : MetadataState ν) :
    ClientStatus × MetadataState ν :=
  let write := { write with nextChunk := write.nextChunk + 1 }
  if write.nextChunk ≠ write.chunkCount then (.success, { s with worker := s.worker.putWrite req.context write })
  else
    let (result, s) := s.onStore (MetadataStore.updateMetadata env.now write.path
      { path := write.path, size := write.fileSize, objId := write.objectId, replicaLocations := write.replicas })
    (getClientStatus result, { s with worker := s.worker.discardWrite req.context })

def writeChunk (env : Env) (req : WriteChunkRequest) (s : MetadataState ν) :
    Except Exn ClientStatus × MetadataState ν :=
  match s.worker.findWrite req.context with
  | none => (.ok .inputError, s)
  | some write =>
      if req.chunkIndex ≠ write.nextChunk ∨ req.chunkIndex ≥ write.chunkCount then
        (.ok .inputError, { s with worker := s.worker.discardWrite req.context })
      else if req.data.length ≠ (expectedSize write.fileSize req.chunkIndex).toNat then
        (.ok .inputError, { s with worker := s.worker.discardWrite req.context })
      else
        let frame := StorageProtocol.encodePutRequest req.context.requestId (putOf req write)
        match ((s.send write.replicas.1 frame).send write.replicas.2 frame).awaitPuts req write.replicas with
        | (.error e, s) => (.error e, s)
        | (.ok false, s) => (.ok .serverError, { s with worker := s.worker.discardWrite req.context })
        | (.ok true, s) =>
            let (status, s) := s.acceptChunk env req write
            (.ok status, s)

def handleWriteChunk (env : Env) (req : WriteChunkRequest) (s : MetadataState ν) : Except Exn Unit × MetadataState ν :=
  match s.writeChunk env req with
  | (.error e, s) => (.error e, s)
  | (.ok status, s) =>
      (.ok (), s.respond req.context fun id => ClientProtocol.encodeWriteChunkResponse id
        { chunkIndex := req.chunkIndex, status, context := req.context })

/-- What the `ReadFile` handler answers: the status, the size and the number of chunks. -/
def readFile (req : ReadFileRequest) (s : MetadataState ν) : (ClientStatus × UInt64 × UInt32) × MetadataState ν :=
  if s.worker.beingWritten req.path then ((.serverError, 0, 0), s)
  else
    match s.worker.store.getMetadata req.path with
    | .error e => ((getClientStatus (α := Unit) (.error e), 0, 0), s)
    | .ok metadata =>
        let chunkCount := chunksOf metadata.size
        let replicas := metadata.replicaLocations
        if metadata.objId = [] then ((.serverError, 0, 0), s)
        else if chunkCount.toNat > 0xffffffff then ((.serverError, 0, 0), s)
        else if metadata.size ≠ 0 ∧ (replicas.1 = [] ∨ replicas.2 = [] ∨ replicas.1 = replicas.2) then
          ((.serverError, 0, 0), s)
        else if metadata.size ≠ 0 ∧ s.worker.isAvailable replicas.1 = false ∧
            s.worker.isAvailable replicas.2 = false then
          ((.serverError, 0, 0), s)
        else if chunkCount = 0 then ((.success, metadata.size, chunkCount.toUInt32), s)
        else
          match s.worker.findRead req.context with
          | some _ => ((.serverError, 0, 0), s)
          | none =>
              let read : PendingRead :=
                { path := req.path, objectId := metadata.objId, fileSize := metadata.size,
                  chunkCount := chunkCount.toUInt32, nextChunk := 0, replicas }
              ((.success, metadata.size, chunkCount.toUInt32), { s with worker := s.worker.putRead req.context read })

def handleReadFile (req : ReadFileRequest) (s : MetadataState ν) : MetadataState ν :=
  let ((status, fileSize, chunkCount), s) := s.readFile req
  s.respond req.context fun id => ClientProtocol.encodeReadFileResponse id
    { status, fileSize, chunkCount, context := req.context }

/-- The data of a `GET` reply, where it is the chunk that was asked for. -/
def chunkIn (chunkIndex : UInt32) (expected : UInt32) (message : Message) : Option Bytes :=
  match Rpc.readMessage StorageJob message >>= StorageProtocol.decodeGetResponse with
  | .error _ => none
  | .ok response =>
      if response.status ≠ .success ∨ response.chunkIndex ≠ chunkIndex ∨
          response.data.length ≠ expected.toNat then none
      else some response.data

/-- Ask the replicas in turn until one has sent the chunk. -/
def fetchChunk (req : ReadChunkRequest) (objectId : Bytes) (expected : UInt32) :
    List NodeId → MetadataState ν → Option Bytes × MetadataState ν
  | [], s => (none, s)
  | replica :: rest, s =>
      if s.worker.isAvailable replica = false then s.fetchChunk req objectId expected rest
      else
        let id := s.worker.currentStorageRequestId + 1
        let s := { s with worker := { s.worker with currentStorageRequestId := id } }
        let get : GetRequest := { objectId, chunkIndex := req.chunkIndex, byteCount := expected, context := req.context }
        let s := s.send replica (StorageProtocol.encodeGetRequest id get)
        match s.receiveIf (Rpc.makeMessageIs id StorageJob.get .response replica
            (Rpc.matchChunk req.chunkIndex)) with
        | (none, s) => s.fetchChunk req objectId expected rest
        | (some message, s) =>
            match chunkIn req.chunkIndex expected message with
            | none => s.fetchChunk req objectId expected rest
            | some data => (some data, s)

def readChunk (req : ReadChunkRequest) (s : MetadataState ν) : (ClientStatus × Bytes) × MetadataState ν :=
  match s.worker.findRead req.context with
  | none => ((.inputError, []), s)
  | some read =>
      if req.chunkIndex ≠ read.nextChunk ∨ req.chunkIndex ≥ read.chunkCount then
        ((.inputError, []), { s with worker := s.worker.discardRead req.context })
      else
        let expected := (expectedSize read.fileSize req.chunkIndex).toUInt32
        match s.fetchChunk req read.objectId expected [read.replicas.1, read.replicas.2] with
        | (none, s) => ((.serverError, []), { s with worker := s.worker.discardRead req.context })
        | (some data, s) =>
            let read := { read with nextChunk := read.nextChunk + 1 }
            let worker :=
              if read.nextChunk = read.chunkCount then s.worker.discardRead req.context
              else s.worker.putRead req.context read
            ((.success, data), { s with worker })

def handleReadChunk (req : ReadChunkRequest) (s : MetadataState ν) : MetadataState ν :=
  let ((status, data), s) := s.readChunk req
  s.respond req.context fun id => ClientProtocol.encodeReadChunkResponse id
    { chunkIndex := req.chunkIndex, status, data, context := req.context }

/-- Whether `replica` has answered the `DELETE` with `Success`. -/
def awaitDelete (id : UInt64) (replica : NodeId) (s : MetadataState ν) : Bool × MetadataState ν :=
  match s.receiveIf (Rpc.makeMessageIs id StorageJob.delete .response replica Rpc.matchAnyBody) with
  | (none, s) => (false, s)
  | (some message, s) =>
      match Rpc.readMessage StorageJob message >>= StorageProtocol.decodeDeleteResponse with
      | .error _ => (false, s)
      | .ok response => (response.status = .success, s)

/-- The part of the `Remove` handler for a file with replicas. -/
def removeObject (req : RemoveRequest) (metadata : FileMetadata) (s : MetadataState ν) :
    ClientStatus × MetadataState ν :=
  let replicas := metadata.replicaLocations
  let id := s.worker.currentStorageRequestId + 1
  let s := { s with worker := { s.worker with currentStorageRequestId := id } }
  let frame := StorageProtocol.encodeDeleteRequest id { objectId := metadata.objId, context := req.context }
  let (first, s) := ((s.send replicas.1 frame).send replicas.2 frame).awaitDelete id replicas.1
  let (second, s) := s.awaitDelete id replicas.2
  if (first && second) = false then (.serverError, s)
  else
    let (result, s) := s.onStore (MetadataStore.removeMetadata req.path)
    (getClientStatus result, s)

def remove (req : RemoveRequest) (s : MetadataState ν) : ClientStatus × MetadataState ν :=
  if s.worker.beingWritten req.path then (.serverError, s)
  else
    match s.worker.store.getMetadata req.path with
    | .error .notFound =>
        let (result, s) := s.onStore (MetadataStore.removeDirectory req.path)
        (getClientStatus result, s)
    | .error e => (getClientStatus (α := Unit) (.error e), s)
    | .ok metadata =>
        let replicas := metadata.replicaLocations
        if halfBound replicas ∨ doubled replicas ∨ metadata.objId = [] then (.serverError, s)
        else if replicas.1 = [] then
          let (result, s) := s.onStore (MetadataStore.removeMetadata req.path)
          (getClientStatus result, s)
        else if s.worker.isAvailable replicas.1 && s.worker.isAvailable replicas.2 then
          s.removeObject req metadata
        else (.serverError, s)

def handleRemove (req : RemoveRequest) (s : MetadataState ν) : MetadataState ν :=
  let (status, s) := s.remove req
  s.respond req.context fun id => ClientProtocol.encodeRemoveResponse id { status }

def handleList (req : ListRequest) (s : MetadataState ν) : Except Exn Unit × MetadataState ν :=
  let (result, s) := s.onStore (MetadataStore.list req.path)
  match result with
  | .error e => (.error e, s)
  | .ok (.ok infoVec) =>
      (.ok (), s.respond req.context fun id =>
        ClientProtocol.encodeListResponse id { status := .success, infoVec, context := req.context })
  | .ok (.error _) =>
      (.ok (), s.respond req.context fun id =>
        ClientProtocol.encodeListResponse id { status := .serverError, infoVec := [], context := req.context })

def handleMakeDir (req : MakeDirRequest) (s : MetadataState ν) : MetadataState ν :=
  let (result, s) := s.onStore (MetadataStore.makeDirectory req.path)
  s.respond req.context fun id =>
    ClientProtocol.encodeMakeDirResponse id { status := getClientStatus result, context := req.context }

def handleRename (req : RenameRequest) (s : MetadataState ν) : MetadataState ν :=
  let (result, s) := s.onStore (MetadataStore.rename req.oldPath req.newPath)
  s.respond req.context fun id =>
    ClientProtocol.encodeRenameResponse id { status := getClientStatus result, context := req.context }

/-- `FileStat{}` -/
def noStat : FileStat :=
  { path := [], isDirectory := false, storageNodes := ([], []), objectId := [], size := 0, createdAt := ⟨0⟩,
    modifiedAt := ⟨0⟩ }

def handleStat (req : StatRequest) (s : MetadataState ν) : Except Exn Unit × MetadataState ν :=
  let answer := fun (status : ClientStatus) (stat : FileStat) (s : MetadataState ν) =>
    s.respond req.context fun id => ClientProtocol.encodeStatResponse id { status, stat, context := req.context }
  match s.worker.store.getMetadata req.path with
  | .ok metadata =>
      (.ok (), answer .success
        { path := metadata.path, isDirectory := false, storageNodes := metadata.replicaLocations,
          objectId := metadata.objId, size := metadata.size, createdAt := metadata.createdAt,
          modifiedAt := metadata.modifiedAt } s)
  | .error .notFound =>
      let (directory, s) := s.onStore (MetadataStore.list req.path)
      match directory with
      | .error e => (.error e, s)
      | .ok (.ok _) => (.ok (), answer .success { noStat with path := req.path, isDirectory := true } s)
      | .ok (.error e) => (.ok (), answer (getClientStatus (α := Unit) (.error e)) noStat s)
  | .error e => (.ok (), answer (getClientStatus (α := Unit) (.error e)) noStat s)

/-- The handler of an event. -/
def handle (env : Env) (event : ClientEvent) (s : MetadataState ν) : Except Exn Unit × MetadataState ν :=
  let s := { s with worker := s.worker.withOutcomes env.outcomes }
  match event with
  | .createFile req => (.ok (), s.handleCreateFile env req)
  | .writeFile req => (.ok (), s.handleWriteFile env req)
  | .writeChunk req => s.handleWriteChunk env req
  | .readFile req => (.ok (), s.handleReadFile req)
  | .readChunk req => (.ok (), s.handleReadChunk req)
  | .remove req => (.ok (), s.handleRemove req)
  | .list req => s.handleList req
  | .makeDir req => (.ok (), s.handleMakeDir req)
  | .rename req => (.ok (), s.handleRename req)
  | .stat req => s.handleStat req

end MetadataState

end Dfs
