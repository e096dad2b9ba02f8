import Dfs.Lib.Disk
import Dfs.Common.Network
import Dfs.Metadata.MetadataWorker

/-!
# The client (`Client.cpp`)

Every operation sends a request and waits for the response; `write_file` and `read_file` go on
with one request for each chunk. A local path is taken as one name: what the directories on its
way do to a call is part of the call's outcome.
-/

namespace Dfs

open Lib

/-- `ClientOperation`, or the exception that leaves the operation. -/
abbrev Returned (α : Type) := Except Exn (Except ClientError α)

/-- What the calls on the local file of `write_file` find: whether it opens, `file_size`, and the
bytes that each read gets. -/
structure LocalFile where
  opens : Bool
  size : Except Exn UInt64
  reads : List Bytes
  deriving DecidableEq

/-- The open stream. -/
structure Input where
  reads : List Bytes
  failed : Bool

/-- `file.read` and `file.gcount`: a short read fails the stream, and after that nothing is read. -/
def Input.read (file : Input) : Bytes × Input :=
  if file.failed then ([], file)
  else
    let data := (file.reads.headD []).take chunkSize
    (data, { reads := file.reads.tail, failed := data.length < chunkSize })

structure Client (ν : Type) where
  network : ν
  disk : Disk
  metadataNodeId : NodeId
  currentId : UInt64

namespace Client

variable {ν : Type} [Network ν]

/-- `TIMEOUT` in seconds. -/
def timeout : Nat := 3

def readChunkTimeout : Nat := 7

def statusToError : ClientStatus → ClientError
  | .alreadyExists => .alreadyExists
  | _ => .serverError

/-- `.context = {}`; it is not sent. -/
def noContext : RequestContext := ⟨0, ⟨[], .client⟩⟩

/-- A request and the wait for its response. -/
def call (requestId : UInt64) (job : ClientJob) (seconds : Nat) (body : BinaryReader → Except Exn Bool) (frame : Frame)
    (c : Client ν) : Except Exn (Except ClientError ClientRpcMessage) × Client ν :=
  match Network.receiveIf seconds (Rpc.makeMessageIs requestId job .response c.metadataNodeId body)
      (Network.send c.metadataNodeId frame c.network) with
  | (none, network) => (.ok (.error .timeout), { c with network })
  | (some message, network) =>
      match Rpc.readMessage ClientJob message with
      | .error e => (.error e, { c with network })
      | .ok rpcMessage =>
          if rpcMessage.rpcHeader ≠ { requestId, job, kind := .response } then
            (.ok (.error .badResponse), { c with network })
          else (.ok (.ok rpcMessage), { c with network })

/-! ## Operations with one request -/

/-- `response` has the status that comes first and the value that is returned with `Success`. -/
def ask {α : Type} (job : ClientJob) (frame : UInt64 → Frame) (response : ClientRpcMessage → Except Exn (ClientStatus × α))
    (c : Client ν) : Returned α × Client ν :=
  let requestId := c.currentId + 1
  match { c with currentId := requestId }.call requestId job timeout Rpc.matchAnyBody (frame requestId) with
  | (.error e, c) => (.error e, c)
  | (.ok (.error e), c) => (.ok (.error e), c)
  | (.ok (.ok rpcMessage), c) =>
      match response rpcMessage with
      | .error e => (.error e, c)
      | .ok (status, value) => (.ok (if status = .success then .ok value else .error (statusToError status)), c)

def createFile (path : Bytes) : Client ν → Returned Unit × Client ν :=
  ask .createFile (fun id => ClientProtocol.encodeCreateFileRequest id { path := PosixPath.lexicallyNormal path, context := noContext })
    fun rpcMessage => return ((← ClientProtocol.decodeCreateFileResponse rpcMessage).status, ())

def remove (path : Bytes) : Client ν → Returned Unit × Client ν :=
  ask .remove (fun id => ClientProtocol.encodeRemoveRequest id { path, context := noContext })
    fun rpcMessage => return ((← ClientProtocol.decodeRemoveResponse rpcMessage).status, ())

def list (directory : Bytes) : Client ν → Returned (List FileInfo) × Client ν :=
  ask .list (fun id => ClientProtocol.encodeListRequest id { path := directory, context := noContext })
    fun rpcMessage => do
      let response ← ClientProtocol.decodeListResponse rpcMessage
      return (response.status, response.infoVec)

def mkdir (path : Bytes) : Client ν → Returned Unit × Client ν :=
  ask .mkdir (fun id => ClientProtocol.encodeMakeDirRequest id { path, context := noContext })
    fun rpcMessage => return ((← ClientProtocol.decodeMakeDirResponse rpcMessage).status, ())

def rename (oldPath newPath : Bytes) : Client ν → Returned Unit × Client ν :=
  ask .rename (fun id => ClientProtocol.encodeRenameRequest id { oldPath, newPath, context := noContext })
    fun rpcMessage => return ((← ClientProtocol.decodeRenameResponse rpcMessage).status, ())

def stat (path : Bytes) : Client ν → Returned FileStat × Client ν :=
  ask .stat (fun id => ClientProtocol.encodeStatRequest id { path, context := noContext })
    fun rpcMessage => do
      let response ← ClientProtocol.decodeStatResponse rpcMessage
      return (response.status, response.stat)

/-! ## `write_file` -/

/-- The loop for the chunks from `chunkIndex` on, of which there are as many as the first argument says. -/
def writeChunks (requestId : UInt64) : Nat → UInt32 → Input → Client ν → Returned Unit × Client ν
  | 0, _, _, c => (.ok (.ok ()), c)
  | left + 1, chunkIndex, file, c =>
      let (data, file) := file.read
      if data = [] then (.ok (.error .readError), c)
      else
        match c.call requestId .writeChunk timeout (Rpc.matchChunk chunkIndex)
            (ClientProtocol.encodeWriteChunkRequest requestId { chunkIndex, data, context := noContext }) with
        | (.error e, c) => (.error e, c)
        | (.ok (.error e), c) => (.ok (.error e), c)
        | (.ok (.ok rpcMessage), c) =>
            match ClientProtocol.decodeWriteChunkResponse rpcMessage with
            | .error e => (.error e, c)
            | .ok response =>
                if response.chunkIndex ≠ chunkIndex then (.ok (.error .badResponse), c)
                else if response.status ≠ .success then (.ok (.error (statusToError response.status)), c)
                else writeChunks requestId left (chunkIndex + 1) file c

def writeFile (file : LocalFile) (path : Bytes) (c : Client ν) : Returned Unit × Client ν :=
  let requestId := c.currentId + 1
  let c := { c with currentId := requestId }
  if file.opens = false then (.ok (.error .badInput), c)
  else
    match file.size with
    | .error e => (.error e, c)
    | .ok fileSize =>
        if (chunksOf fileSize).toNat > 0xffffffff then (.ok (.error .storageFull), c)
        else
          let chunkCount := (chunksOf fileSize).toUInt32
          match c.call requestId .writeFile timeout Rpc.matchAnyBody
              (ClientProtocol.encodeWriteFileRequest requestId { fileSize, chunkCount, path, context := noContext }) with
          | (.error e, c) => (.error e, c)
          | (.ok (.error e), c) => (.ok (.error e), c)
          | (.ok (.ok rpcMessage), c) =>
              match ClientProtocol.decodeWriteFileResponse rpcMessage with
              | .error e => (.error e, c)
              | .ok response =>
                  if response.status ≠ .success then (.ok (.error (statusToError response.status)), c)
                  else writeChunks requestId chunkCount.toNat 0 { reads := file.reads, failed := false } c

/-! ## `read_file` -/

/-- `".dfs-read-" + std::to_string(request_id) + ".tmp"` -/
def temporarySuffix (requestId : UInt64) : Bytes :=
  [46, 100, 102, 115, 45, 114, 101, 97, 100, 45] ++
    (Nat.toDigits 10 requestId.toNat).map (fun digit => UInt8.ofNat digit.toNat) ++ [46, 116, 109, 112]

def localPath (path : Bytes) : FilePath := [path]

def temporaryPath (toPath : Bytes) (requestId : UInt64) : FilePath := localPath (toPath ++ temporarySuffix requestId)

/-- Remove the temporary file, whatever comes of it. -/
def removeTemporary (temporary : FilePath) (c : Client ν) : Client ν := { c with disk := (c.disk.remove temporary).2 }

/-- Close the output and remove the temporary file. -/
def discardTemporary (temporary : FilePath) (c : Client ν) : Client ν :=
  { c with disk := c.disk.settle.2 }.removeTemporary temporary

/-- After the last chunk: close the output and put it in the place of the destination. -/
def finishRead (toPath : Bytes) (temporary : FilePath) (c : Client ν) : Returned Unit × Client ν :=
  let (flushed, disk) := c.disk.settle
  let (closed, disk) := disk.settle
  match flushed.bind fun _ => closed with
  | .error _ => (.ok (.error .readError), { c with disk }.removeTemporary temporary)
  | .ok _ =>
      match disk.rename temporary (localPath toPath) with
      | (.error _, disk) => (.ok (.error .readError), { c with disk }.removeTemporary temporary)
      | (.ok _, disk) => (.ok (.ok ()), { c with disk })

/-- The loop for the chunks from `chunkIndex` on, of which there are as many as the first argument says. -/
def readChunks (requestId : UInt64) (fileSize : UInt64) (toPath : Bytes) (temporary : FilePath) :
    Nat → UInt32 → Client ν → Returned Unit × Client ν
  | 0, _, c => c.finishRead toPath temporary
  | left + 1, chunkIndex, c =>
      match c.call requestId .readChunk readChunkTimeout (Rpc.matchChunk chunkIndex)
          (ClientProtocol.encodeReadChunkRequest requestId { chunkIndex, context := noContext }) with
      | (.error e, c) => (.error e, c)
      | (.ok (.error e), c) => (.ok (.error e), c.discardTemporary temporary)
      | (.ok (.ok rpcMessage), c) =>
          match ClientProtocol.decodeReadChunkResponse rpcMessage with
          | .error e => (.error e, c)
          | .ok response =>
              if response.status ≠ .success then
                (.ok (.error (statusToError response.status)), c.discardTemporary temporary)
              else if response.chunkIndex ≠ chunkIndex ∨
                  response.data.length ≠ (expectedSize fileSize chunkIndex).toNat then
                (.ok (.error .badResponse), c.discardTemporary temporary)
              else
                match c.disk.write temporary response.data with
                | (.error _, disk) => (.ok (.error .readError), { c with disk }.discardTemporary temporary)
                | (.ok _, disk) => readChunks requestId fileSize toPath temporary left (chunkIndex + 1) { c with disk }

def readFile (fromPath toPath : Bytes) (c : Client ν) : Returned Unit × Client ν :=
  let requestId := c.currentId + 1
  let c := { c with currentId := requestId }
  match c.call requestId .readFile timeout Rpc.matchAnyBody
      (ClientProtocol.encodeReadFileRequest requestId { path := fromPath, context := noContext }) with
  | (.error e, c) => (.error e, c)
  | (.ok (.error e), c) => (.ok (.error e), c)
  | (.ok (.ok rpcMessage), c) =>
      match ClientProtocol.decodeReadFileResponse rpcMessage with
      | .error e => (.error e, c)
      | .ok response =>
          if response.status ≠ .success then (.ok (.error (statusToError response.status)), c)
          else if chunksOf response.fileSize ≠ response.chunkCount.toUInt64 then (.ok (.error .badResponse), c)
          else if toPath = [] then (.ok (.error .badInput), c)
          else
            let temporary := temporaryPath toPath requestId
            match c.disk.openTruncate temporary with
            | (.error _, disk) => (.ok (.error .badInput), { c with disk })
            | (.ok _, disk) =>
                readChunks requestId response.fileSize toPath temporary response.chunkCount.toNat 0 { c with disk }

end Client

end Dfs
