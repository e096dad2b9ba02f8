import Dfs.Common.ClientProtocol

/-!
# Metadata node and storage nodes (`StorageProtocol.hpp`)
-/

namespace Dfs

open Lib

inductive StorageJob where
  | put
  | get
  | delete
  | other (b : UInt8) (h : 2 < b.toNat)
  deriving DecidableEq

instance : WireEnum StorageJob where
  toByte
    | .put => 0
    | .get => 1
    | .delete => 2
    | .other b _ => b
  ofByte b :=
    if h0 : b.toNat = 0 then .put
    else if h1 : b.toNat = 1 then .get
    else if h2 : b.toNat = 2 then .delete
    else .other b (by omega)
  ofByte_toByte v := by
    cases v with
    | other b h =>
        simp only
        split_ifs <;> first | omega | rfl
    | _ => rfl
  toByte_ofByte b := by
    split_ifs <;> first | rfl | exact UInt8.toNat_inj.1 (Eq.symm ‹_›)

instance : RpcTraits StorageJob := ⟨.storageRpc⟩

abbrev StorageRpcMessage := RpcMessage StorageJob

inductive StorageStatus where
  | success
  | noSpace
  | writeError
  | readError
  | invalidRequest
  | other (b : UInt8) (h : 5 ≤ b.toNat)
  deriving DecidableEq

instance : WireEnum StorageStatus where
  toByte
    | .success => 0
    | .noSpace => 1
    | .writeError => 2
    | .readError => 3
    | .invalidRequest => 4
    | .other b _ => b
  ofByte b :=
    if h0 : b.toNat = 0 then .success
    else if h1 : b.toNat = 1 then .noSpace
    else if h2 : b.toNat = 2 then .writeError
    else if h3 : b.toNat = 3 then .readError
    else if h4 : b.toNat = 4 then .invalidRequest
    else .other b (by omega)
  ofByte_toByte v := by
    cases v with
    | other b h =>
        simp only
        split_ifs <;> first | omega | rfl
    | _ => rfl
  toByte_ofByte b := by
    split_ifs <;> first | rfl | exact UInt8.toNat_inj.1 (Eq.symm ‹_›)

structure PutRequest where
  objectId : Bytes
  chunkIndex : UInt32
  finalChunk : Bool
  data : Bytes
  context : RequestContext
  deriving DecidableEq

structure PutResponse where
  chunkIndex : UInt32
  sizeAvailable : UInt64
  status : StorageStatus
  deriving DecidableEq

structure GetRequest where
  objectId : Bytes
  chunkIndex : UInt32
  byteCount : UInt32
  context : RequestContext
  deriving DecidableEq

structure GetResponse where
  chunkIndex : UInt32
  status : StorageStatus
  data : Bytes
  deriving DecidableEq

structure DeleteRequest where
  objectId : Bytes
  context : RequestContext
  deriving DecidableEq

structure DeleteResponse where
  status : StorageStatus
  deriving DecidableEq

namespace StorageProtocol

def validateStorageMessage (job : StorageJob) (kind : RpcKind) (message : StorageRpcMessage) :
    Except Exn Unit :=
  if message.rpcHeader.job ≠ job then .error .runtimeError
  else if message.rpcHeader.kind ≠ kind then .error .runtimeError
  else .ok ()

def encodePutRequest (requestId : UInt64) (request : PutRequest) : Frame :=
  Rpc.makeFrame requestId StorageJob.put .request
    (write request.objectId ++ (write request.chunkIndex ++ (write request.finalChunk ++ request.data)))

def decodePutRequest (message : StorageRpcMessage) : Except Exn PutRequest := do
  validateStorageMessage .put .request message
  let (objectId, reader) ← (BinaryReader.start message.body).read Bytes
  let (chunkIndex, reader) ← reader.read UInt32
  let (finalChunk, reader) ← reader.read Bool
  let (data, _) ← reader.readRemaining
  return { objectId, chunkIndex, finalChunk, data, context := .of message }

def encodePutResponse (requestId : UInt64) (response : PutResponse) : Frame :=
  Rpc.makeFrame requestId StorageJob.put .response
    (write response.chunkIndex ++ (write response.sizeAvailable ++ write response.status))

def decodePutResponse (message : StorageRpcMessage) : Except Exn PutResponse := do
  validateStorageMessage .put .response message
  let (chunkIndex, reader) ← (BinaryReader.start message.body).read UInt32
  let (sizeAvailable, reader) ← reader.read UInt64
  let (status, reader) ← reader.read StorageStatus
  reader.assertAtEnd
  return { chunkIndex, sizeAvailable, status }

def encodeGetRequest (requestId : UInt64) (request : GetRequest) : Frame :=
  Rpc.makeFrame requestId StorageJob.get .request
    (write request.objectId ++ (write request.chunkIndex ++ write request.byteCount))

def decodeGetRequest (message : StorageRpcMessage) : Except Exn GetRequest := do
  validateStorageMessage .get .request message
  let (objectId, reader) ← (BinaryReader.start message.body).read Bytes
  let (chunkIndex, reader) ← reader.read UInt32
  let (byteCount, reader) ← reader.read UInt32
  reader.assertAtEnd
  return { objectId, chunkIndex, byteCount, context := .of message }

def encodeGetResponse (requestId : UInt64) (response : GetResponse) : Frame :=
  Rpc.makeFrame requestId StorageJob.get .response
    (write response.chunkIndex ++ (write response.status ++ response.data))

def decodeGetResponse (message : StorageRpcMessage) : Except Exn GetResponse := do
  validateStorageMessage .get .response message
  let (chunkIndex, reader) ← (BinaryReader.start message.body).read UInt32
  let (status, reader) ← reader.read StorageStatus
  let (data, _) ← reader.readRemaining
  return { chunkIndex, status, data }

def encodeDeleteRequest (requestId : UInt64) (request : DeleteRequest) : Frame :=
  Rpc.makeFrame requestId StorageJob.delete .request (write request.objectId)

def decodeDeleteRequest (message : StorageRpcMessage) : Except Exn DeleteRequest := do
  validateStorageMessage .delete .request message
  let (objectId, reader) ← (BinaryReader.start message.body).read Bytes
  reader.assertAtEnd
  return { objectId, context := .of message }

def encodeDeleteResponse (requestId : UInt64) (response : DeleteResponse) : Frame :=
  Rpc.makeFrame requestId StorageJob.delete .response (write response.status)

def decodeDeleteResponse (message : StorageRpcMessage) : Except Exn DeleteResponse := do
  validateStorageMessage .delete .response message
  let (status, reader) ← (BinaryReader.start message.body).read StorageStatus
  reader.assertAtEnd
  return { status }

end StorageProtocol

end Dfs
