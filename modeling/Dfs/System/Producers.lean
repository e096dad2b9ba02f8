import Dfs.Common.Formats
import Dfs.Metadata.MetadataNode
import Dfs.Storage.StorageNode

/-!
# Messages become jobs (`MetadataNode.cpp`, `StorageNode.hpp`)

The producer thread of a node takes messages from the network's queue and puts jobs into the
queue of the worker thread. An exception that leaves `push_worker_job` ends the process.
-/

namespace Dfs

open Lib

/-- The two queues of a producer thread. -/
structure Producer (Job : Type) where
  messages : List Message
  jobs : List Job
  deriving DecidableEq

/-! ## The metadata node -/

/-- The jobs of its worker thread. -/
inductive NodeJob where
  | client (event : ClientEvent)
  | heartbeat (sender : NodeIdentity)
  deriving DecidableEq

/-- The request in a message of the client protocol. -/
def ClientEvent.of (message : Message) : Except Exn ClientEvent := do
  let rpcMessage ← Rpc.readMessage ClientJob message
  match rpcMessage.rpcHeader.job with
  | .createFile => return .createFile (← ClientProtocol.decodeCreateFileRequest rpcMessage)
  | .readFile => return .readFile (← ClientProtocol.decodeReadFileRequest rpcMessage)
  | .readChunk => return .readChunk (← ClientProtocol.decodeReadChunkRequest rpcMessage)
  | .writeFile => return .writeFile (← ClientProtocol.decodeWriteFileRequest rpcMessage)
  | .writeChunk => return .writeChunk (← ClientProtocol.decodeWriteChunkRequest rpcMessage)
  | .remove => return .remove (← ClientProtocol.decodeRemoveRequest rpcMessage)
  | .list => return .list (← ClientProtocol.decodeListRequest rpcMessage)
  | .mkdir => return .makeDir (← ClientProtocol.decodeMakeDirRequest rpcMessage)
  | .rename => return .rename (← ClientProtocol.decodeRenameRequest rpcMessage)
  | .stat => return .stat (← ClientProtocol.decodeStatRequest rpcMessage)
  | .other _ _ => .error .runtimeError

namespace NodeJob

/-- The filter of the producer thread. -/
def takes (message : Message) : Bool :=
  Rpc.messageIs ClientJob .request message || decide (message.header.type = .storageHeartbeat)

/-- `push_worker_job`: what it pushes. -/
def of (message : Message) : Except Exn (Option NodeJob) :=
  if message.header.type = .clientRpc then
    match ClientEvent.of message with
    | .error e => .error e
    | .ok event => .ok (some (.client event))
  else if message.header.type = .storageHeartbeat then .ok (some (.heartbeat message.sender))
  else .ok none

theorem of_heartbeat {m : Message} {sender : NodeIdentity} :
    of m = .ok (some (.heartbeat sender)) ↔ m.header.type = .storageHeartbeat ∧ m.sender = sender := by
  rw [of]
  constructor
  · intro decoded
    split at decoded
    · split at decoded <;> cases decoded
    split at decoded
    · cases decoded
      exact ⟨‹_›, rfl⟩
    · cases decoded
  · rintro ⟨type, rfl⟩
    rw [if_neg (by rw [type]; nofun), if_pos type]

/-- One round of the producer thread. -/
def produce (s : Producer NodeJob) : Except Exn (Producer NodeJob) :=
  match popIf takes s.messages with
  | (none, messages) => .ok { s with messages }
  | (some message, messages) =>
      match of message with
      | .error e => .error e
      | .ok job => .ok { messages, jobs := s.jobs ++ job.toList }

end NodeJob

/-! ## The storage node -/

/-- One round of its producer thread, which takes every message. -/
def StorageEvent.produce (s : Producer StorageEvent) : Except Exn (Producer StorageEvent) :=
  match s.messages with
  | [] => .ok s
  | message :: messages =>
      match StorageEvent.of message with
      | .error e => .error e
      | .ok job => .ok { messages, jobs := s.jobs ++ [job] }

/-! ## What a message can do -/

/-- What may become of `message` in a round in which the messages before it are left alone: it stays
in the queue and changes nothing else, it is dropped, or it becomes one job. -/
def Digestible {Job : Type} (takes : Message → Bool) (decoded : Message → Job → Prop)
    (produce : Producer Job → Except Exn (Producer Job)) (message : Message) : Prop :=
  ∀ before after jobs, (∀ m ∈ before, takes m = false) →
    (takes message = false ∧
        produce { messages := before ++ message :: after, jobs } =
          (produce { messages := before ++ after, jobs }).map fun s =>
            { s with messages := before ++ message :: s.messages.drop before.length }) ∨
      produce { messages := before ++ message :: after, jobs } = .ok { messages := before ++ after, jobs } ∨
      ∃ job, decoded message job ∧
        produce { messages := before ++ message :: after, jobs } = .ok { messages := before ++ after, jobs := jobs ++ [job] }

def NodeJob.Digests : Message → Prop :=
  Digestible takes (fun message job => NodeJob.of message = .ok (some job)) produce

def StorageEvent.Digests : Message → Prop :=
  Digestible (fun _ => true) (fun message job => StorageEvent.of message = .ok job) produce

/-- The body of a request: its fields, and whether raw data may follow. -/
def ClientJob.format : ClientJob → Option (Bool × List Field)
  | createFile | readFile | remove | list | mkdir | stat => some (false, [.text])
  | readChunk => some (false, [.word 4])
  | writeFile => some (false, [.word 8, .word 4, .text])
  | writeChunk => some (true, [.word 4])
  | rename => some (false, [.text, .text])
  | other _ _ => none

def StorageJob.format : StorageJob → Option (Bool × List Field)
  | put => some (true, [.text, .word 4, .word 1])
  | get => some (false, [.text, .word 4, .word 4])
  | delete => some (false, [.text])
  | other _ _ => none

/-- There is such a body, and `body` fits it. -/
def bodyFits (format : Option (Bool × List Field)) (body : Bytes) : Bool :=
  match format with
  | none => false
  | some (raw, fields) => fits raw fields body

/-- A request of the client protocol whose body fits its job. -/
def ClientEvent.WellFormed (message : Message) : Prop :=
  ∃ requestId job body, message = (Rpc.makeFrame requestId job .request body).from message.sender ∧
    bodyFits (ClientJob.format job) body = true

/-- A request of the storage protocol whose body fits its job. -/
def StorageEvent.WellFormed (message : Message) : Prop :=
  Rpc.headerMatches StorageJob message = true ∧
    ∃ requestId job body, message = (Rpc.makeFrame requestId job .request body).from message.sender ∧
      bodyFits (StorageJob.format job) body = true

/-! ## When it can be digested -/

theorem map_isOk {α β : Type} (x : Except Exn α) (f : α → β) : (x >>= fun a => (pure (f a) : Except Exn β)).isOk = x.isOk := by
  cases x <;> rfl

theorem clientEvent_isOk {requestId : UInt64} {job : ClientJob} {body : Bytes} {sender : NodeIdentity}
    (matched : Rpc.headerMatches ClientJob ((Rpc.makeFrame requestId job .request body).from sender) = true) :
    (ClientEvent.of ((Rpc.makeFrame requestId job .request body).from sender)).isOk = bodyFits job.format body := by
  rw [ClientEvent.of, Rpc.readMessage_matched matched (Or.inl rfl)]
  simp only [bind, Except.bind]
  cases job with
  | createFile => exact (map_isOk _ _).trans (ClientProtocol.decodeCreateFileRequest_isOk.trans (Bool.true_and _))
  | readFile => exact (map_isOk _ _).trans (ClientProtocol.decodeReadFileRequest_isOk.trans (Bool.true_and _))
  | readChunk => exact (map_isOk _ _).trans (ClientProtocol.decodeReadChunkRequest_isOk.trans (Bool.true_and _))
  | writeFile => exact (map_isOk _ _).trans (ClientProtocol.decodeWriteFileRequest_isOk.trans (Bool.true_and _))
  | writeChunk => exact (map_isOk _ _).trans (ClientProtocol.decodeWriteChunkRequest_isOk.trans (Bool.true_and _))
  | remove => exact (map_isOk _ _).trans (ClientProtocol.decodeRemoveRequest_isOk.trans (Bool.true_and _))
  | list => exact (map_isOk _ _).trans (ClientProtocol.decodeListRequest_isOk.trans (Bool.true_and _))
  | mkdir => exact (map_isOk _ _).trans (ClientProtocol.decodeMakeDirRequest_isOk.trans (Bool.true_and _))
  | rename => exact (map_isOk _ _).trans (ClientProtocol.decodeRenameRequest_isOk.trans (Bool.true_and _))
  | stat => exact (map_isOk _ _).trans (ClientProtocol.decodeStatRequest_isOk.trans (Bool.true_and _))
  | other b h => rfl

theorem storageEvent_isOk {requestId : UInt64} {job : StorageJob} {body : Bytes} {sender : NodeIdentity}
    (matched : Rpc.headerMatches StorageJob ((Rpc.makeFrame requestId job .request body).from sender) = true) :
    (StorageEvent.of ((Rpc.makeFrame requestId job .request body).from sender)).isOk = bodyFits job.format body := by
  rw [StorageEvent.of, Rpc.readMessage_matched matched (Or.inl rfl)]
  simp only [bind, Except.bind]
  cases job with
  | put => exact (map_isOk _ _).trans (StorageProtocol.decodePutRequest_isOk.trans (Bool.true_and _))
  | get => exact (map_isOk _ _).trans (StorageProtocol.decodeGetRequest_isOk.trans (Bool.true_and _))
  | delete => exact (map_isOk _ _).trans (StorageProtocol.decodeDeleteRequest_isOk.trans (Bool.true_and _))
  | other b h => rfl

theorem storageResponse_isOk {requestId : UInt64} {job : StorageJob} {body : Bytes} {sender : NodeIdentity}
    (matched : Rpc.headerMatches StorageJob ((Rpc.makeFrame requestId job .response body).from sender) = true) :
    (StorageEvent.of ((Rpc.makeFrame requestId job .response body).from sender)).isOk = false := by
  let message : StorageRpcMessage :=
    { sender, messageHeader := (Rpc.makeFrame requestId job .response body).header
      rpcHeader := { requestId, job, kind := .response }, body }
  rw [StorageEvent.of, Rpc.readMessage_matched matched (Or.inr rfl)]
  simp only [bind, Except.bind]
  cases job with
  | put => exact (map_isOk _ StorageEvent.put).trans ((StorageProtocol.decodePutRequest_isOk (m := message)).trans rfl)
  | get => exact (map_isOk _ StorageEvent.get).trans ((StorageProtocol.decodeGetRequest_isOk (m := message)).trans rfl)
  | delete => exact (map_isOk _ StorageEvent.delete).trans ((StorageProtocol.decodeDeleteRequest_isOk (m := message)).trans rfl)
  | other b h => rfl

/-- Only a request is a job of a storage node. -/
theorem storageEvent_request {message : Message} {event : StorageEvent} (decoded : StorageEvent.of message = .ok event) :
    Rpc.headerMatches StorageJob message = true ∧
      ∃ (requestId : UInt64) (job : StorageJob) (body : Bytes),
        message = (Rpc.makeFrame requestId job .request body).from message.sender := by
  have isOk : (StorageEvent.of message).isOk = true := by rw [decoded]; rfl
  rw [StorageEvent.of] at decoded
  cases read : Rpc.readMessage StorageJob message with
  | error e =>
      rw [read] at decoded
      cases decoded
  | ok rpcMessage =>
      obtain ⟨matched, requestId, job, kind, body, frame, rfl | rfl⟩ := Rpc.exists_makeFrame_of_read read
      · exact ⟨matched, requestId, job, body, frame⟩
      · rw [frame] at matched isOk
        rw [storageResponse_isOk matched] at isOk
        cases isOk

theorem storageEvent_of_isOk {message : Message} :
    (StorageEvent.of message).isOk = true ↔ StorageEvent.WellFormed message := by
  constructor
  · intro isOk
    cases decoded : StorageEvent.of message with
    | error e =>
        rw [decoded] at isOk
        cases isOk
    | ok event =>
        obtain ⟨matched, requestId, job, body, frame⟩ := storageEvent_request decoded
        refine ⟨matched, requestId, job, body, frame, ?_⟩
        rw [frame] at matched isOk
        rwa [storageEvent_isOk matched] at isOk
  · rintro ⟨matched, requestId, job, body, frame, fit⟩
    rw [frame] at matched ⊢
    rwa [storageEvent_isOk matched]

theorem clientEvent_of_isOk {message : Message} (request : Rpc.messageIs ClientJob .request message = true) :
    (ClientEvent.of message).isOk = true ↔ ClientEvent.WellFormed message := by
  obtain ⟨matched, requestId, job, body, frame⟩ := Rpc.messageIs_iff.1 request
  constructor
  · intro isOk
    refine ⟨requestId, job, body, frame, ?_⟩
    rw [frame] at matched isOk
    rwa [clientEvent_isOk matched] at isOk
  · rintro ⟨requestId, job, body, frame, fit⟩
    rw [frame] at matched ⊢
    rwa [clientEvent_isOk matched]

/-! ## Rounds -/

section Rounds

variable {before after : List Message} {message : Message} {takes : Message → Bool}

theorem popIf_taken (untaken : ∀ m ∈ before, takes m = false) (taken : takes message = true) :
    popIf takes (before ++ message :: after) = (some message, before ++ after) := by
  have skipped : ∀ m ∈ before, ¬ takes m = true := fun m mem => by simp [untaken m mem]
  rw [popIf, List.find?_append, List.find?_eq_none.2 skipped, List.eraseP_append_right _ skipped,
    List.find?_cons_of_pos taken, List.eraseP_cons_of_pos taken]
  rfl

theorem popIf_left (untaken : ∀ m ∈ before, takes m = false) (left : takes message = false) :
    popIf takes (before ++ message :: after) =
      ((popIf takes (before ++ after)).1,
        before ++ message :: (popIf takes (before ++ after)).2.drop before.length) := by
  have skipped : ∀ m ∈ before, ¬ takes m = true := fun m mem => by simp [untaken m mem]
  rw [popIf, popIf, List.find?_append, List.find?_append, List.eraseP_append_right _ skipped,
    List.eraseP_append_right _ skipped, List.find?_cons, left, List.eraseP_cons_of_neg (by simp [left])]
  simp

end Rounds

theorem nodeJob_digests {message : Message} :
    NodeJob.Digests message ↔ (Rpc.messageIs ClientJob .request message = true → ClientEvent.WellFormed message) := by
  constructor
  · intro digests request
    have taken : NodeJob.takes message = true := by rw [NodeJob.takes, request, Bool.true_or]
    have type : message.header.type = .clientRpc := by
      have matched := (Rpc.messageIs_iff.1 request).1
      simp only [Rpc.headerMatches, Bool.and_eq_true, decide_eq_true_eq] at matched
      exact matched.1.2
    refine (clientEvent_of_isOk request).1 ?_
    cases decoded : ClientEvent.of message with
    | ok event => rfl
    | error e =>
        have failed : NodeJob.produce { messages := [] ++ message :: [], jobs := [] } = .error e := by
          rw [NodeJob.produce, popIf_taken (by simp) taken]
          simp only [NodeJob.of, if_pos type, decoded]
        rcases digests [] [] [] (by simp) with ⟨left, -⟩ | dropped | ⟨job, -, enqueued⟩
        · rw [taken] at left
          cases left
        · rw [failed] at dropped
          cases dropped
        · rw [failed] at enqueued
          cases enqueued
  · intro wellFormed before after jobs untaken
    cases taken : NodeJob.takes message with
    | false =>
        refine Or.inl ⟨rfl, ?_⟩
        rw [NodeJob.produce, NodeJob.produce, popIf_left untaken taken]
        rcases popIf NodeJob.takes (before ++ after) with ⟨found, messages⟩
        cases found with
        | none => rfl
        | some m =>
            dsimp only
            cases NodeJob.of m <;> rfl
    | true =>
        have pushed : ∃ job, NodeJob.of message = .ok (some job) := by
          rw [NodeJob.takes, Bool.or_eq_true, decide_eq_true_eq] at taken
          rcases taken with request | heartbeat
          · have isOk := (clientEvent_of_isOk request).2 (wellFormed request)
            have matched := (Rpc.messageIs_iff.1 request).1
            simp only [Rpc.headerMatches, Bool.and_eq_true, decide_eq_true_eq] at matched
            have type : message.header.type = .clientRpc := matched.1.2
            cases decoded : ClientEvent.of message with
            | error e =>
                rw [decoded] at isOk
                cases isOk
            | ok event => exact ⟨.client event, by simp only [NodeJob.of, if_pos type, decoded]⟩
          · exact ⟨.heartbeat message.sender, by rw [NodeJob.of, if_neg (by rw [heartbeat]; decide), if_pos heartbeat]⟩
        obtain ⟨job, pushed⟩ := pushed
        refine Or.inr (Or.inr ⟨job, pushed, ?_⟩)
        rw [NodeJob.produce, popIf_taken untaken taken]
        simp only [pushed]
        rfl

theorem storageEvent_digests {message : Message} : StorageEvent.Digests message ↔ StorageEvent.WellFormed message := by
  rw [← storageEvent_of_isOk]
  constructor
  · intro digests
    cases decoded : StorageEvent.of message with
    | ok event => rfl
    | error e =>
        have failed : StorageEvent.produce { messages := [] ++ message :: [], jobs := [] } = .error e := by
          rw [StorageEvent.produce, List.nil_append]
          simp only [decoded]
        rcases digests [] [] [] (by simp) with ⟨left, -⟩ | dropped | ⟨job, -, enqueued⟩
        · cases left
        · rw [failed] at dropped
          cases dropped
        · rw [failed] at enqueued
          cases enqueued
  · intro isOk before after jobs untaken
    have first : before = [] := List.eq_nil_iff_forall_not_mem.2 fun m mem => by cases untaken m mem
    subst first
    cases decoded : StorageEvent.of message with
    | error e =>
        rw [decoded] at isOk
        cases isOk
    | ok job =>
        refine Or.inr (Or.inr ⟨job, decoded, ?_⟩)
        rw [StorageEvent.produce, List.nil_append]
        simp only [decoded]
        rfl

/-- A message brings no node down exactly if a metadata node that takes it for a client request and
a storage node, which takes it in any case, find the request of their protocol in it. -/
theorem messages_digested (message : Message) :
    (NodeJob.Digests message ↔ (Rpc.messageIs ClientJob .request message = true → ClientEvent.WellFormed message)) ∧
      (StorageEvent.Digests message ↔ StorageEvent.WellFormed message) :=
  ⟨nodeJob_digests, storageEvent_digests⟩

/-- A `CreateFile` without a path. -/
def noPath : Message := (Rpc.makeFrame 1 ClientJob.createFile .request []).from ⟨[99], .client⟩

theorem noPath_undigested :
    NodeJob.produce { messages := [noPath], jobs := [] } = .error .runtimeError ∧ ¬ NodeJob.Digests noPath := by
  have failed : NodeJob.produce { messages := [] ++ noPath :: [], jobs := [] } = .error .runtimeError := by decide +kernel
  refine ⟨failed, fun digests => ?_⟩
  rcases digests [] [] [] (by simp) with ⟨left, -⟩ | dropped | ⟨job, -, enqueued⟩
  · exact absurd left (by decide +kernel)
  · rw [failed] at dropped
    cases dropped
  · rw [failed] at enqueued
    cases enqueued

end Dfs
