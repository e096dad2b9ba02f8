import Dfs.Common.Rpc

/-!
# Clients and the metadata node (`ClientProtocol.hpp`)
-/

namespace Dfs

open Lib

inductive ClientJob where
  | createFile
  | readFile
  | writeFile
  | remove
  | list
  | mkdir
  | rename
  | stat
  | readChunk
  | writeChunk
  | other (b : UInt8) (h : 10 ≤ b.toNat)
  deriving DecidableEq

namespace ClientJob

def toByte : ClientJob → UInt8
  | createFile => 0
  | readFile => 1
  | writeFile => 2
  | remove => 3
  | list => 4
  | mkdir => 5
  | rename => 6
  | stat => 7
  | readChunk => 8
  | writeChunk => 9
  | other b _ => b

def ofByte (b : UInt8) : ClientJob :=
  if h0 : b.toNat = 0 then createFile
  else if h1 : b.toNat = 1 then readFile
  else if h2 : b.toNat = 2 then writeFile
  else if h3 : b.toNat = 3 then remove
  else if h4 : b.toNat = 4 then list
  else if h5 : b.toNat = 5 then mkdir
  else if h6 : b.toNat = 6 then rename
  else if h7 : b.toNat = 7 then stat
  else if h8 : b.toNat = 8 then readChunk
  else if h9 : b.toNat = 9 then writeChunk
  else other b (by omega)

theorem ofByte_toByte (v : ClientJob) : ofByte (toByte v) = v := by
  cases v with
  | other b h =>
      have known : ∀ k, k < 10 → ¬ b.toNat = k := fun k lt => by omega
      rw [toByte, ofByte]
      rw [dif_neg (known 0 (by decide)), dif_neg (known 1 (by decide)), dif_neg (known 2 (by decide)),
        dif_neg (known 3 (by decide)), dif_neg (known 4 (by decide)), dif_neg (known 5 (by decide)),
        dif_neg (known 6 (by decide)), dif_neg (known 7 (by decide)), dif_neg (known 8 (by decide)),
        dif_neg (known 9 (by decide))]
  | _ => rfl

theorem toByte_ofByte (b : UInt8) : toByte (ofByte b) = b := by
  unfold ofByte
  repeat' split
  all_goals first | exact UInt8.toNat_inj.1 (Eq.symm ‹_›) | rfl

instance : WireEnum ClientJob := ⟨toByte, ofByte, ofByte_toByte, toByte_ofByte⟩

end ClientJob

instance : RpcTraits ClientJob := ⟨.clientRpc⟩

abbrev ClientRpcMessage := RpcMessage ClientJob

inductive ClientStatus where
  | success
  | serverError
  | inputError
  | alreadyExists
  | other (b : UInt8) (h : 3 < b.toNat)
  deriving DecidableEq

instance : WireEnum ClientStatus where
  toByte
    | .success => 0
    | .serverError => 1
    | .inputError => 2
    | .alreadyExists => 3
    | .other b _ => b
  ofByte b :=
    if h0 : b.toNat = 0 then .success
    else if h1 : b.toNat = 1 then .serverError
    else if h2 : b.toNat = 2 then .inputError
    else if h3 : b.toNat = 3 then .alreadyExists
    else .other b (by omega)
  ofByte_toByte v := by
    cases v with
    | other b h =>
        simp only
        split_ifs <;> first | omega | rfl
    | _ => rfl
  toByte_ofByte b := by
    split_ifs <;> first | rfl | exact UInt8.toNat_inj.1 (Eq.symm ‹_›)

/-- What a client operation returns when it does not succeed. -/
inductive ClientError where
  | alreadyExists
  | serverError
  | badResponse
  | badInput
  | notImplemented
  | timeout
  | storageFull
  | readError
  deriving DecidableEq

/-- Size of a chunk of file data in one request. -/
def chunkSize : Nat := 512 * 1024

structure RequestContext where
  requestId : UInt64
  sender : NodeIdentity
  deriving DecidableEq

def RequestContext.of {Job : Type} (message : RpcMessage Job) : RequestContext :=
  ⟨message.rpcHeader.requestId, message.sender⟩

structure FileInfo where
  path : Bytes
  isDirectory : Bool
  deriving DecidableEq

structure FileStat where
  path : Bytes
  isDirectory : Bool
  storageNodes : NodeId × NodeId
  objectId : Bytes
  size : UInt64
  createdAt : TimePoint
  modifiedAt : TimePoint
  deriving DecidableEq

structure CreateFileRequest where
  path : Bytes
  context : RequestContext
  deriving DecidableEq

structure CreateFileResponse where
  status : ClientStatus
  context : RequestContext
  deriving DecidableEq

structure ReadFileRequest where
  path : Bytes
  context : RequestContext
  deriving DecidableEq

structure ReadFileResponse where
  status : ClientStatus
  fileSize : UInt64
  chunkCount : UInt32
  context : RequestContext
  deriving DecidableEq

structure ReadChunkRequest where
  chunkIndex : UInt32
  context : RequestContext
  deriving DecidableEq

structure ReadChunkResponse where
  chunkIndex : UInt32
  status : ClientStatus
  data : Bytes
  context : RequestContext
  deriving DecidableEq

structure WriteFileRequest where
  fileSize : UInt64
  chunkCount : UInt32
  path : Bytes
  context : RequestContext
  deriving DecidableEq

structure WriteFileResponse where
  status : ClientStatus
  context : RequestContext
  deriving DecidableEq

structure WriteChunkRequest where
  chunkIndex : UInt32
  data : Bytes
  context : RequestContext
  deriving DecidableEq

structure WriteChunkResponse where
  chunkIndex : UInt32
  status : ClientStatus
  context : RequestContext
  deriving DecidableEq

structure RemoveRequest where
  path : Bytes
  context : RequestContext
  deriving DecidableEq

structure RemoveResponse where
  status : ClientStatus
  deriving DecidableEq

structure ListRequest where
  path : Bytes
  context : RequestContext
  deriving DecidableEq

structure ListResponse where
  status : ClientStatus
  infoVec : List FileInfo
  context : RequestContext
  deriving DecidableEq

structure MakeDirRequest where
  path : Bytes
  context : RequestContext
  deriving DecidableEq

structure MakeDirResponse where
  status : ClientStatus
  context : RequestContext
  deriving DecidableEq

structure RenameRequest where
  oldPath : Bytes
  newPath : Bytes
  context : RequestContext
  deriving DecidableEq

structure RenameResponse where
  status : ClientStatus
  context : RequestContext
  deriving DecidableEq

structure StatRequest where
  path : Bytes
  context : RequestContext
  deriving DecidableEq

structure StatResponse where
  status : ClientStatus
  stat : FileStat
  context : RequestContext
  deriving DecidableEq

namespace ClientProtocol

def validateRpcMessage (job : ClientJob) (kind : RpcKind) (message : ClientRpcMessage) : Except Exn Unit :=
  if message.rpcHeader.kind ≠ kind then .error .runtimeError
  else if message.rpcHeader.job ≠ job then .error .runtimeError
  else .ok ()

def encodeCreateFileRequest (requestId : UInt64) (request : CreateFileRequest) : Frame :=
  Rpc.makeFrame requestId ClientJob.createFile .request (write request.path)

def decodeCreateFileRequest (message : ClientRpcMessage) : Except Exn CreateFileRequest := do
  validateRpcMessage .createFile .request message
  let (path, reader) ← (BinaryReader.start message.body).read Bytes
  reader.assertAtEnd
  return { path, context := .of message }

def encodeCreateFileResponse (requestId : UInt64) (response : CreateFileResponse) : Frame :=
  Rpc.makeFrame requestId ClientJob.createFile .response (write response.status)

def decodeCreateFileResponse (message : ClientRpcMessage) : Except Exn CreateFileResponse := do
  validateRpcMessage .createFile .response message
  let (status, reader) ← (BinaryReader.start message.body).read ClientStatus
  reader.assertAtEnd
  return { status, context := .of message }

def encodeReadFileRequest (requestId : UInt64) (request : ReadFileRequest) : Frame :=
  Rpc.makeFrame requestId ClientJob.readFile .request (write request.path)

def decodeReadFileRequest (message : ClientRpcMessage) : Except Exn ReadFileRequest := do
  validateRpcMessage .readFile .request message
  let (path, reader) ← (BinaryReader.start message.body).read Bytes
  reader.assertAtEnd
  return { path, context := .of message }

def encodeReadFileResponse (requestId : UInt64) (response : ReadFileResponse) : Frame :=
  Rpc.makeFrame requestId ClientJob.readFile .response
    (write response.status ++ (write response.fileSize ++ write response.chunkCount))

def decodeReadFileResponse (message : ClientRpcMessage) : Except Exn ReadFileResponse := do
  validateRpcMessage .readFile .response message
  let (status, reader) ← (BinaryReader.start message.body).read ClientStatus
  let (fileSize, reader) ← reader.read UInt64
  let (chunkCount, reader) ← reader.read UInt32
  reader.assertAtEnd
  return { status, fileSize, chunkCount, context := .of message }

def encodeReadChunkRequest (requestId : UInt64) (request : ReadChunkRequest) : Frame :=
  Rpc.makeFrame requestId ClientJob.readChunk .request (write request.chunkIndex)

def decodeReadChunkRequest (message : ClientRpcMessage) : Except Exn ReadChunkRequest := do
  validateRpcMessage .readChunk .request message
  let (chunkIndex, reader) ← (BinaryReader.start message.body).read UInt32
  reader.assertAtEnd
  return { chunkIndex, context := .of message }

def encodeReadChunkResponse (requestId : UInt64) (response : ReadChunkResponse) : Frame :=
  Rpc.makeFrame requestId ClientJob.readChunk .response
    (write response.chunkIndex ++ (write response.status ++ response.data))

def decodeReadChunkResponse (message : ClientRpcMessage) : Except Exn ReadChunkResponse := do
  validateRpcMessage .readChunk .response message
  let (chunkIndex, reader) ← (BinaryReader.start message.body).read UInt32
  let (status, reader) ← reader.read ClientStatus
  let (data, _) ← reader.readRemaining
  return { chunkIndex, status, data, context := .of message }

def encodeWriteFileRequest (requestId : UInt64) (request : WriteFileRequest) : Frame :=
  Rpc.makeFrame requestId ClientJob.writeFile .request
    (write request.fileSize ++ (write request.chunkCount ++ write request.path))

def decodeWriteFileRequest (message : ClientRpcMessage) : Except Exn WriteFileRequest := do
  validateRpcMessage .writeFile .request message
  let (fileSize, reader) ← (BinaryReader.start message.body).read UInt64
  let (chunkCount, reader) ← reader.read UInt32
  let (path, reader) ← reader.read Bytes
  reader.assertAtEnd
  return { fileSize, chunkCount, path, context := .of message }

def encodeWriteFileResponse (requestId : UInt64) (response : WriteFileResponse) : Frame :=
  Rpc.makeFrame requestId ClientJob.writeFile .response (write response.status)

def decodeWriteFileResponse (message : ClientRpcMessage) : Except Exn WriteFileResponse := do
  validateRpcMessage .writeFile .response message
  let (status, reader) ← (BinaryReader.start message.body).read ClientStatus
  reader.assertAtEnd
  return { status, context := .of message }

def encodeWriteChunkRequest (requestId : UInt64) (request : WriteChunkRequest) : Frame :=
  Rpc.makeFrame requestId ClientJob.writeChunk .request (write request.chunkIndex ++ request.data)

def decodeWriteChunkRequest (message : ClientRpcMessage) : Except Exn WriteChunkRequest := do
  validateRpcMessage .writeChunk .request message
  let (chunkIndex, reader) ← (BinaryReader.start message.body).read UInt32
  let (data, _) ← reader.readRemaining
  return { chunkIndex, data, context := .of message }

def encodeWriteChunkResponse (requestId : UInt64) (response : WriteChunkResponse) : Frame :=
  Rpc.makeFrame requestId ClientJob.writeChunk .response (write response.chunkIndex ++ write response.status)

def decodeWriteChunkResponse (message : ClientRpcMessage) : Except Exn WriteChunkResponse := do
  validateRpcMessage .writeChunk .response message
  let (chunkIndex, reader) ← (BinaryReader.start message.body).read UInt32
  let (status, reader) ← reader.read ClientStatus
  reader.assertAtEnd
  return { chunkIndex, status, context := .of message }

def encodeRemoveRequest (requestId : UInt64) (request : RemoveRequest) : Frame :=
  Rpc.makeFrame requestId ClientJob.remove .request (write request.path)

def decodeRemoveRequest (message : ClientRpcMessage) : Except Exn RemoveRequest := do
  validateRpcMessage .remove .request message
  let (path, reader) ← (BinaryReader.start message.body).read Bytes
  reader.assertAtEnd
  return { path, context := .of message }

def encodeRemoveResponse (requestId : UInt64) (response : RemoveResponse) : Frame :=
  Rpc.makeFrame requestId ClientJob.remove .response (write response.status)

def decodeRemoveResponse (message : ClientRpcMessage) : Except Exn RemoveResponse := do
  validateRpcMessage .remove .response message
  let (status, reader) ← (BinaryReader.start message.body).read ClientStatus
  reader.assertAtEnd
  return { status }

def encodeListRequest (requestId : UInt64) (request : ListRequest) : Frame :=
  Rpc.makeFrame requestId ClientJob.list .request (write request.path)

def decodeListRequest (message : ClientRpcMessage) : Except Exn ListRequest := do
  validateRpcMessage .list .request message
  let (path, reader) ← (BinaryReader.start message.body).read Bytes
  reader.assertAtEnd
  return { path, context := .of message }

def encodeListResponse (requestId : UInt64) (response : ListResponse) : Frame :=
  Rpc.makeFrame requestId ClientJob.list .response (write response.status ++
    (write (UInt32.ofNat response.infoVec.length) ++
      response.infoVec.flatMap fun info => write info.path ++ write info.isDirectory))

/-- Read `n` entries of a listing. -/
def readInfos : Nat → BinaryReader → Except Exn (List FileInfo × BinaryReader)
  | 0, reader => .ok ([], reader)
  | n + 1, reader => do
      let (path, reader) ← reader.read Bytes
      let (isDirectory, reader) ← reader.read Bool
      let (infos, reader) ← readInfos n reader
      return ({ path, isDirectory } :: infos, reader)

/-- The loop counter is an `int`: a size from 2³¹ on reads nothing and the entries stay empty. -/
def decodeListResponse (message : ClientRpcMessage) : Except Exn ListResponse := do
  validateRpcMessage .list .response message
  let (status, reader) ← (BinaryReader.start message.body).read ClientStatus
  let (size, reader) ← reader.read UInt32
  let count := if size.toNat < 2 ^ 31 then size.toNat else 0
  let (infos, reader) ← readInfos count reader
  reader.assertAtEnd
  let infoVec := infos ++ List.replicate (size.toNat - count) { path := [], isDirectory := false }
  return { status, infoVec, context := .of message }

def encodeMakeDirRequest (requestId : UInt64) (request : MakeDirRequest) : Frame :=
  Rpc.makeFrame requestId ClientJob.mkdir .request (write request.path)

def decodeMakeDirRequest (message : ClientRpcMessage) : Except Exn MakeDirRequest := do
  validateRpcMessage .mkdir .request message
  let (path, reader) ← (BinaryReader.start message.body).read Bytes
  reader.assertAtEnd
  return { path, context := .of message }

def encodeMakeDirResponse (requestId : UInt64) (response : MakeDirResponse) : Frame :=
  Rpc.makeFrame requestId ClientJob.mkdir .response (write response.status)

def decodeMakeDirResponse (message : ClientRpcMessage) : Except Exn MakeDirResponse := do
  validateRpcMessage .mkdir .response message
  let (status, reader) ← (BinaryReader.start message.body).read ClientStatus
  reader.assertAtEnd
  return { status, context := .of message }

def encodeRenameRequest (requestId : UInt64) (request : RenameRequest) : Frame :=
  Rpc.makeFrame requestId ClientJob.rename .request (write request.oldPath ++ write request.newPath)

def decodeRenameRequest (message : ClientRpcMessage) : Except Exn RenameRequest := do
  validateRpcMessage .rename .request message
  let (oldPath, reader) ← (BinaryReader.start message.body).read Bytes
  let (newPath, reader) ← reader.read Bytes
  reader.assertAtEnd
  return { oldPath, newPath, context := .of message }

def encodeRenameResponse (requestId : UInt64) (response : RenameResponse) : Frame :=
  Rpc.makeFrame requestId ClientJob.rename .response (write response.status)

def decodeRenameResponse (message : ClientRpcMessage) : Except Exn RenameResponse := do
  validateRpcMessage .rename .response message
  let (status, reader) ← (BinaryReader.start message.body).read ClientStatus
  reader.assertAtEnd
  return { status, context := .of message }

def encodeStatRequest (requestId : UInt64) (request : StatRequest) : Frame :=
  Rpc.makeFrame requestId ClientJob.stat .request (write request.path)

def decodeStatRequest (message : ClientRpcMessage) : Except Exn StatRequest := do
  validateRpcMessage .stat .request message
  let (path, reader) ← (BinaryReader.start message.body).read Bytes
  reader.assertAtEnd
  return { path, context := .of message }

def encodeStatResponse (requestId : UInt64) (response : StatResponse) : Frame :=
  let stat := response.stat
  Rpc.makeFrame requestId ClientJob.stat .response (write response.status ++ (write stat.path ++
    (write stat.isDirectory ++ (write stat.storageNodes.1 ++ (write stat.storageNodes.2 ++
      (write stat.objectId ++ (write stat.size ++ (write stat.createdAt ++ write stat.modifiedAt))))))))

def decodeStatResponse (message : ClientRpcMessage) : Except Exn StatResponse := do
  validateRpcMessage .stat .response message
  let (status, reader) ← (BinaryReader.start message.body).read ClientStatus
  let (path, reader) ← reader.read Bytes
  let (isDirectory, reader) ← reader.read Bool
  let (node0, reader) ← reader.read Bytes
  let (node1, reader) ← reader.read Bytes
  let (objectId, reader) ← reader.read Bytes
  let (size, reader) ← reader.read UInt64
  let (createdAt, reader) ← reader.read TimePoint
  let (modifiedAt, reader) ← reader.read TimePoint
  reader.assertAtEnd
  return {
    status
    stat := { path, isDirectory, storageNodes := (node0, node1), objectId, size, createdAt, modifiedAt }
    context := .of message }

end ClientProtocol

end Dfs
