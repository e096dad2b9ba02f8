import Dfs.Storage.StorageWorker
import Dfs.Common.RoundTrips

/-!
# The storage node (`StorageNode.hpp`)

Messages become jobs for the one worker thread, in the order of their arrival.
-/

namespace Dfs

open Lib

/-- The jobs of the worker thread. -/
inductive StorageEvent where
  | put (req : PutRequest)
  | get (req : GetRequest)
  | delete (req : DeleteRequest)
  deriving DecidableEq

def StorageEvent.job : StorageEvent → StorageJob
  | put _ => .put
  | get _ => .get
  | delete _ => .delete

def StorageEvent.context : StorageEvent → RequestContext
  | put req => req.context
  | get req => req.context
  | delete req => req.context

/-- `push_worker_job`: the job in a message. -/
def StorageEvent.of (message : Message) : Except Exn StorageEvent := do
  let rpcMessage ← Rpc.readMessage StorageJob message
  match rpcMessage.rpcHeader.job with
  | .put => return .put (← StorageProtocol.decodePutRequest rpcMessage)
  | .delete => return .delete (← StorageProtocol.decodeDeleteRequest rpcMessage)
  | .get => return .get (← StorageProtocol.decodeGetRequest rpcMessage)
  | .other _ _ => .error .runtimeError

/-- The reply to a job and the worker after it. -/
def StorageWorker.handle (event : StorageEvent) (w : StorageWorker) : Frame × StorageWorker :=
  match event with
  | .put req =>
      let (response, w) := w.handlePut req
      (StorageProtocol.encodePutResponse req.context.requestId response, w)
  | .get req =>
      let (response, w) := w.handleGet req
      (StorageProtocol.encodeGetResponse req.context.requestId response, w)
  | .delete req =>
      let (response, w) := w.handleDelete req
      (StorageProtocol.encodeDeleteResponse req.context.requestId response, w)

/-! ## The frames of the metadata node -/

namespace StorageProtocol

variable {message : StorageRpcMessage}

theorem decodePutRequest_context {put : PutRequest} (h : decodePutRequest message = .ok put) :
    put.context = .of message := by
  simp only [decodePutRequest, bind, Except.bind] at h
  repeat' split at h
  all_goals cases h
  rfl

theorem decodeGetRequest_context {get : GetRequest} (h : decodeGetRequest message = .ok get) :
    get.context = .of message := by
  simp only [decodeGetRequest, bind, Except.bind] at h
  repeat' split at h
  all_goals cases h
  rfl

theorem decodeDeleteRequest_context {delete : DeleteRequest} (h : decodeDeleteRequest message = .ok delete) :
    delete.context = .of message := by
  simp only [decodeDeleteRequest, bind, Except.bind] at h
  repeat' split at h
  all_goals cases h
  rfl

end StorageProtocol

section Receive

open StorageProtocol

variable {requestId : UInt64} {s : NodeIdentity}

theorem of_putRequest {request : PutRequest} (clean : NulFree request.objectId)
    (small : request.objectId.length + request.data.length < 2 ^ 30) :
    StorageEvent.of ((StorageProtocol.encodePutRequest requestId request).from s) =
      .ok (.put { request with context := ⟨requestId, s⟩ }) := by
  obtain ⟨message, read, header, -, decoded⟩ :=
    (StorageKind.finds_putRequest clean).receive (by simp [write]; omega) requestId s
  change Rpc.readMessage StorageJob ((encodePutRequest requestId request).from s) = _ at read
  change decodePutRequest message = _ at decoded
  simp only [StorageEvent.of, read, header, bind, Except.bind, decoded]
  rfl

theorem of_getRequest {request : GetRequest} (clean : NulFree request.objectId)
    (small : request.objectId.length < 2 ^ 30) :
    StorageEvent.of ((StorageProtocol.encodeGetRequest requestId request).from s) =
      .ok (.get { request with context := ⟨requestId, s⟩ }) := by
  obtain ⟨message, read, header, -, decoded⟩ :=
    (StorageKind.finds_getRequest clean).receive (by simp [write]; omega) requestId s
  change Rpc.readMessage StorageJob ((encodeGetRequest requestId request).from s) = _ at read
  change decodeGetRequest message = _ at decoded
  simp only [StorageEvent.of, read, header, bind, Except.bind, decoded]
  rfl

theorem of_deleteRequest {request : DeleteRequest} (clean : NulFree request.objectId)
    (small : request.objectId.length < 2 ^ 30) :
    StorageEvent.of ((StorageProtocol.encodeDeleteRequest requestId request).from s) =
      .ok (.delete { request with context := ⟨requestId, s⟩ }) := by
  obtain ⟨message, read, header, -, decoded⟩ :=
    (StorageKind.finds_deleteRequest clean).receive (by simp [write]; omega) requestId s
  change Rpc.readMessage StorageJob ((encodeDeleteRequest requestId request).from s) = _ at read
  change decodeDeleteRequest message = _ at decoded
  simp only [StorageEvent.of, read, header, bind, Except.bind, decoded]
  rfl

/-- A job has the request id of its frame, whatever else is in it. -/
theorem of_makeFrame {job : StorageJob} {body : Bytes} {event : StorageEvent}
    (h : StorageEvent.of ((Rpc.makeFrame requestId job .request body).from s) = .ok event) :
    event.job = job ∧ event.context = ⟨requestId, s⟩ := by
  simp only [StorageEvent.of, bind, Except.bind] at h
  split at h
  · cases h
  rename_i message read
  obtain ⟨header, sender⟩ := Rpc.readMessage_ok read
  have context : RequestContext.of message = ⟨requestId, s⟩ := by rw [RequestContext.of, header, sender]
  rw [header] at h
  dsimp only at h
  split at h
  · split at h
    · cases h
    · rename_i put decoded
      cases h
      exact ⟨rfl, (decodePutRequest_context decoded).trans context⟩
  · split at h
    · cases h
    · rename_i delete decoded
      cases h
      exact ⟨rfl, (decodeDeleteRequest_context decoded).trans context⟩
  · split at h
    · cases h
    · rename_i get decoded
      cases h
      exact ⟨rfl, (decodeGetRequest_context decoded).trans context⟩
  · cases h

/-- The frames for clients are no jobs. -/
theorem of_clientFrame {job : ClientJob} {kind : RpcKind} {body : Bytes} {event : StorageEvent} :
    StorageEvent.of ((Rpc.makeFrame requestId job kind body).from s) ≠ .ok event := fun h => by
  have type : Rpc.validateMessage StorageJob ((Rpc.makeFrame requestId job kind body).from s) = .error .runtimeError := by
    rw [Rpc.validateMessage, if_neg (fun h => h rfl), if_pos (fun h => by cases h)]
  rw [StorageEvent.of, Rpc.readMessage, type] at h
  cases h

end Receive

/-! ## Replies -/

/-- A reply has the job and the request id of its request, and for a `PUT` the chunk index too. -/
theorem handle_reply (w : StorageWorker) (event : StorageEvent) :
    ∃ body, (w.handle event).1 = Rpc.makeFrame event.context.requestId event.job .response body ∧
      ∀ put, event = .put put → ∃ rest, body = write put.chunkIndex ++ rest := by
  cases event with
  | put req => exact ⟨_, rfl, fun put same => ⟨_, by cases same; rfl⟩⟩
  | get req => exact ⟨_, rfl, fun put same => by cases same⟩
  | delete req => exact ⟨_, rfl, fun put same => by cases same⟩

end Dfs
