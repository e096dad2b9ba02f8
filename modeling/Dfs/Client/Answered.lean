import Dfs.Client.Reading
import Dfs.Client.Service
import Dfs.Client.Spelling
import Dfs.Common.RoundTrips
import Dfs.Network.FrameIO
import Dfs.System.Download

/-!
# Calls that are answered

A client between two calls has nothing under way. While it waits for the answer to its one request
the worker takes the request, and nodes may come and go before and after that.
-/

namespace Dfs

open Lib

namespace System

variable {s s' : System} {e : SystemEvent} {events : List SystemEvent} {context : RequestContext} {write : PendingWrite}
  {read : PendingRead} {chunks : List Bytes} {path b : Bytes}

theorem Smooth.background (smooth : e.Smooth) : e.Background := by
  cases e with
  | request event env script => exact smooth
  | _ => trivial

/-- Without a request nothing throws. -/
theorem Background.next (background : e.Background) (s : System) : ∃ s', s.next e = .ok s' := by
  cases e with
  | request event env script => exact background.elim
  | _ => exact ⟨_, rfl⟩

theorem background_run (background : ∀ e ∈ events, e.Background) (s : System) : ∃ s', s.run events = .ok s' := by
  induction events generalizing s with
  | nil => exact ⟨s, rfl⟩
  | cons e events ih =>
      obtain ⟨s₁, stepped⟩ := Background.next (background e List.mem_cons_self) s
      obtain ⟨s', ran⟩ := ih (fun e mem => background e (List.mem_cons_of_mem _ mem)) s₁
      exact ⟨s', by rw [System.run, Lib.run, stepped]; exact ran⟩

theorem background_unchanged (background : ∀ e ∈ events, e.Background) (ran : s.run events = .ok s') :
    s'.network.answers = s.network.answers ∧ s'.network.self = s.network.self :=
  run_keeps (P := fun t : System => t.network.answers = s.network.answers ∧ t.network.self = s.network.self)
    (fun t t' e mem ⟨answers, self⟩ stepped => by
      have unchanged := Background.unchanged (background e mem) stepped
      exact ⟨unchanged.answers.trans answers, unchanged.self.trans self⟩) ⟨rfl, rfl⟩ ran

/-- The answers have reached the client. -/
def delivered (s : System) : System := { s with network := { s.network with answers := [] } }

theorem Removable.delivered (removable : s.Removable) : s.delivered.Removable where
  sturdy := { removable.sturdy with }
  ordinary := ⟨removable.ordinary.peers, removable.ordinary.queue⟩
  generated := removable.generated

theorem Uploading.delivered (uploading : Uploading context write chunks s) : Uploading context write chunks s.delivered :=
  { uploading with removable := uploading.removable.delivered }

theorem Provides.delivered (provides : Provides path b s) : Provides path b s.delivered :=
  { provides with ordinary := ⟨provides.ordinary.peers, provides.ordinary.queue⟩ }

theorem Downloading.delivered (downloading : Downloading context read b s) : Downloading context read b s.delivered :=
  { downloading with ordinary := ⟨downloading.ordinary.peers, downloading.ordinary.queue⟩ }

theorem replies_self {event : ClientEvent} {env : Env} {script : List (List Act)} {frame : Frame}
    (replies : s.Replies event env script frame s') : s'.network.self = s.network.self := by
  obtain ⟨status, frame, s₁, handled, -, rfl⟩ := MetadataState.handle_handled (next_request replies.stepped)
  exact (handled_answers handled _).1

end System

namespace Service

variable {n : Service} {before after events : List SystemEvent} {env : Env} {during : List (List Act)} {s s₁ s₂ : System}
  {request reply : Frame} {event : ClientEvent} {p : Message → Bool}

/-- Nothing is under way between the client and the metadata node. -/
structure Clear (n : Service) : Prop where
  requests : n.requests = []
  messages : n.messageQueue = []
  answers : n.system.network.answers = []
  running : n.ended = false

theorem acts_append (n : Service) (l l' : List ServiceAct) : n.acts (l ++ l') = (n.acts l).acts l' := List.foldl_append

theorem acts_other (running : n.ended = false) (background : ∀ e ∈ events, e.Background) (ran : n.system.run events = .ok s) :
    n.acts (events.map .other) = { n with system := s } := by
  induction events generalizing n with
  | nil =>
      cases ran
      rfl
  | cons e events ih =>
      obtain ⟨s₁, stepped, rest⟩ := run_cons ran
      have foreign : ¬ e.requester = some n.client := by
        have unasked := background e List.mem_cons_self
        cases e with
        | request event env script => exact unasked.elim
        | _ => simp [SystemEvent.requester]
      have first : n.act (.other e) = { n with system := s₁ } := by
        rw [act, if_neg (by simp [running, foreign]), step, stepped]
      rw [List.map_cons, acts, List.foldl_cons, first]
      exact ih (n := { n with system := s₁ }) running (fun e mem => background e (List.mem_cons_of_mem _ mem)) rest

/-- One request, one answer. -/
theorem Clear.receives (clear : n.Clear) (node : NodeId) (seconds : Nat)
    (script : n.script.headD [] = before.map .other ++ .handle 0 env during :: (after.map .other ++ [.arrive 0]))
    (background : ∀ e ∈ before ++ after, e.Background) (ran : n.system.run before = .ok s)
    (read : NodeJob.of (request.from ⟨n.client, .client⟩) = .ok (some (.client event)))
    (replies : s.Replies event env during reply s₁) (ran' : s₁.run after = .ok s₂)
    (accepts : p (reply.from n.system.network.self) = true) :
    Network.receiveIf seconds p (Network.send node request n) = (some (reply.from n.system.network.self),
      { n with system := s₂.delivered, script := n.script.tail, sent := n.sent ++ [request] }) := by
  obtain ⟨requests, messages, answers, running⟩ := clear
  obtain ⟨answersBefore, selfBefore⟩ := System.background_unchanged (fun e mem => background e (List.mem_append_left _ mem)) ran
  obtain ⟨answersAfter, selfAfter⟩ := System.background_unchanged (fun e mem => background e (List.mem_append_right _ mem)) ran'
  have sender : event.context.sender.id = n.client := by rw [NodeJob.event_sender read]
  have answered : s₂.network.answers = [(n.client, reply)] := by
    rw [answersAfter, replies.answers, answersBefore, answers, sender]
    rfl
  have self : s₂.network.self = n.system.network.self :=
    selfAfter.trans ((System.replies_self replies).trans selfBefore)
  set n₀ : Service := { n with requests := [request], sent := n.sent ++ [request], script := n.script.tail }
  have first : n₀.acts (before.map .other) = { n₀ with system := s } :=
    acts_other running (fun e mem => background e (List.mem_append_left _ mem)) ran
  have handled : Service.act { n₀ with system := s } (.handle 0 env during) = { n₀ with system := s₁, requests := [] } := by
    rw [act, if_neg (by simp [n₀, running]), handle]
    simp only [n₀, List.getElem?_cons_zero, read, step, replies.stepped, List.eraseIdx_zero, List.tail_cons]
  have last : Service.acts { n₀ with system := s₁, requests := [] } (after.map .other) =
      { n₀ with system := s₂, requests := [] } :=
    acts_other (n := { n₀ with system := s₁, requests := [] }) running
      (fun e mem => background e (List.mem_append_right _ mem)) ran'
  have arrived : Service.act { n₀ with system := s₂, requests := [] } (.arrive 0) =
      { n₀ with system := s₂.delivered, requests := [], messageQueue := [reply] } := by
    rw [act, arrive]
    simp only [n₀, answered, List.getElem?_cons_zero, if_true, dropAnswer, List.eraseIdx_zero, List.tail_cons, messages,
      List.nil_append, System.delivered]
  have waited : (n.send request).await = { n₀ with system := s₂.delivered, requests := [], messageQueue := [reply] } := by
    rw [await]
    have sent : ({ n.send request with script := (n.send request).script.tail } : Service) = n₀ := by
      simp only [send, requests, n₀, List.nil_append]
    have same : (n.send request).script = n.script := rfl
    rw [sent, same, script, acts_append, first, acts, List.foldl_cons, handled]
    change Service.acts { n₀ with system := s₁, requests := [] } (after.map .other ++ [.arrive 0]) = _
    rw [acts_append, last, acts, List.foldl_cons, arrived, List.foldl_nil]
  change (n.send request).await.take p = _
  rw [waited, take, popIf]
  have accepted : p (reply.from s₂.delivered.network.self) = true := by
    change p (reply.from s₂.network.self) = true
    rw [self]
    exact accepts
  rw [List.find?_cons_of_pos (by exact accepted), List.eraseP_cons_of_pos (by exact accepted)]
  refine Prod.ext (congrArg (fun sender => some (reply.from sender)) self) ?_
  simp only [n₀, requests, messages]

/-- The client has got its answer, and the metadata node goes on from `s`. -/
def settled (n : Service) (request : Frame) (s : System) : Service :=
  { n with system := s.delivered, script := n.script.tail, sent := n.sent ++ [request] }

theorem Clear.settled (clear : n.Clear) (request : Frame) (s : System) : (n.settled request s).Clear :=
  ⟨clear.requests, clear.messages, rfl, clear.running⟩

/-- While the client waits the worker takes its request, at a moment for which `holds` is true, and the answer arrives. -/
def Attended (quiet : SystemEvent → Prop) (holds : System → Env → List (List Act) → Prop) (n : Service) : Prop :=
  ∃ before after env during s,
    n.script.headD [] = before.map .other ++ .handle 0 env during :: (after.map .other ++ [.arrive 0]) ∧
      (∀ e ∈ before ++ after, quiet e) ∧ n.system.run before = .ok s ∧ holds s env during

/-- What a request needs to be answered is kept until it is, and what comes of it after that. -/
theorem Attended.receives {quiet : SystemEvent → Prop} {holds : System → Env → List (List Act) → Prop} {I : System → Prop}
    {J : Frame → System → Prop} (attended : n.Attended quiet holds) (clear : n.Clear) (start : I n.system)
    (background : ∀ e, quiet e → e.Background) (keeps : ∀ s s' e, quiet e → I s → s.next e = .ok s' → I s')
    (keeps' : ∀ reply s s' e, quiet e → J reply s → s.next e = .ok s' → J reply s')
    (read : NodeJob.of (request.from ⟨n.client, .client⟩) = .ok (some (.client event)))
    (answered : ∀ s env during, I s → holds s env during → ∃ reply s', s.Replies event env during reply s' ∧ J reply s')
    (accepts : ∀ reply s, J reply s → p (reply.from n.system.network.self) = true) (node : NodeId) (seconds : Nat) :
    ∃ reply s', J reply s' ∧ s'.network.self = n.system.network.self ∧
      Network.receiveIf seconds p (Network.send node request n) = (some (reply.from n.system.network.self), n.settled request s') := by
  obtain ⟨before, after, env, during, s, script, quiet', ran, holds'⟩ := attended
  have quietBefore : ∀ e ∈ before, quiet e := fun e mem => quiet' e (List.mem_append_left _ mem)
  have quietAfter : ∀ e ∈ after, quiet e := fun e mem => quiet' e (List.mem_append_right _ mem)
  have ready : I s := run_keeps (P := I) (fun t t' e mem kept stepped => keeps t t' e (quietBefore e mem) kept stepped) start ran
  obtain ⟨reply, s₁, replies, after₁⟩ := answered s env during ready holds'
  obtain ⟨s₂, ran'⟩ := System.background_run (fun e mem => background e (quietAfter e mem)) s₁
  have after₂ : J reply s₂ := run_keeps (P := J reply)
    (fun t t' e mem kept stepped => keeps' reply t t' e (quietAfter e mem) kept stepped) after₁ ran'
  have self : s₂.network.self = n.system.network.self :=
    (System.background_unchanged (fun e mem => background e (quietAfter e mem)) ran').2.trans
      ((System.replies_self replies).trans (System.background_unchanged (fun e mem => background e (quietBefore e mem)) ran).2)
  exact ⟨reply, s₂, after₂, self, clear.receives node seconds script (fun e mem => background e (quiet' e mem)) ran read replies
    ran' (accepts reply s₁ after₁)⟩

end Service

/-! ## The four calls -/

theorem NodeJob.of_client {m : Message} {event : ClientEvent} (type : m.header.type = .clientRpc)
    (read : ClientEvent.of m = .ok event) : NodeJob.of m = .ok (some (.client event)) := by
  rw [NodeJob.of, if_pos type, read]

namespace ClientEvent

variable {id : UInt64} {sender : NodeIdentity} {chunkIndex : UInt32} {data : Bytes}

theorem of_writeChunk (short : data.length ≤ chunkSize) :
    ClientEvent.of ((ClientProtocol.encodeWriteChunkRequest id { chunkIndex, data, context := Client.noContext }).from sender) =
      .ok (.writeChunk { chunkIndex, data, context := ⟨id, sender⟩ }) := by
  have finds := ClientKind.finds_writeChunkRequest { chunkIndex, data, context := Client.noContext }
  have small : (write chunkIndex ++ data).length < 2 ^ 31 := by
    rw [chunkSize] at short
    simp [write]
    omega
  obtain ⟨message, read, header, -, decoded⟩ := finds.receive small id sender
  simp only [ClientKind.codec] at read decoded
  simp only [ClientEvent.of, read, bind, Except.bind, header, decoded]
  rfl

theorem of_readChunk :
    ClientEvent.of ((ClientProtocol.encodeReadChunkRequest id { chunkIndex, context := Client.noContext }).from sender) =
      .ok (.readChunk { chunkIndex, context := ⟨id, sender⟩ }) := by
  have finds : (ClientKind.codec .readChunkRequest).Finds { chunkIndex, context := Client.noContext } .readChunk .request _ :=
    ClientKind.finds_one (fun context chunkIndex => ⟨chunkIndex, context⟩) trivial (fun _ => rfl) (.inl rfl) (fun _ => rfl) rfl
  obtain ⟨message, read, header, -, decoded⟩ := finds.receive (by simp [write]) id sender
  simp only [ClientKind.codec] at read decoded
  simp only [ClientEvent.of, read, bind, Except.bind, header, decoded]
  rfl

end ClientEvent

namespace Client

/-- What a response says that has been received. -/
theorem call_response {ν : Type} [Network ν] {c : Client ν} {n : ν} {kind : ClientKind} {value : kind.Value} {bytes : Bytes}
    {self : NodeIdentity} {requestId : UInt64} {job : ClientJob} {seconds : Nat} {body : BinaryReader → Except Exn Bool}
    {frame : Frame} (finds : kind.codec.Finds value job .response bytes) (short : bytes.length < 2 ^ 31)
    (received : Network.receiveIf seconds (Rpc.makeMessageIs requestId job .response c.metadataNodeId body)
      (Network.send c.metadataNodeId frame c.network) = (some ((kind.codec.encode requestId value).from self), n)) :
    ∃ m, c.call requestId job seconds body frame = (.ok (.ok m), { c with network := n }) ∧
      kind.codec.decode m = .ok (kind.codec.received ⟨requestId, self⟩ value) := by
  obtain ⟨-, m, read, called⟩ := call_received (congrArg Prod.fst received)
  obtain ⟨m', read', -, -, decoded⟩ := finds.receive short requestId self
  cases read.symm.trans read'
  exact ⟨m, by rw [called, received], decoded⟩

/-- What comes back for `WRITE_FILE`, and the network behind it. -/
def writeFileReply {ν : Type} [Network ν] (metadata : NodeId) (requestId fileSize : UInt64) (chunkCount : UInt32) (path : Bytes)
    (n : ν) : Option Message × ν :=
  Network.receiveIf timeout (Rpc.makeMessageIs requestId ClientJob.writeFile .response metadata Rpc.matchAnyBody)
    (Network.send metadata
      (ClientProtocol.encodeWriteFileRequest requestId { fileSize, chunkCount, path, context := noContext }) n)

/-- What comes back for `WRITE_CHUNK` number `k`, and the network behind it. -/
def writeReply {ν : Type} [Network ν] (metadata : NodeId) (requestId : UInt64) (k : UInt32) (data : Bytes) (n : ν) :
    Option Message × ν :=
  Network.receiveIf timeout (Rpc.makeMessageIs requestId ClientJob.writeChunk .response metadata (Rpc.matchChunk k))
    (Network.send metadata (ClientProtocol.encodeWriteChunkRequest requestId { chunkIndex := k, data, context := noContext }) n)

open Dfs.System

variable {c : Client Service} {n : Service} {id : UInt64} {data b path : Bytes} {write : PendingWrite} {read : PendingRead}
  {chunks : List Bytes}

/-- The client knows the metadata node, and between them nothing is under way. -/
structure Attached (c : Client Service) : Prop where
  clear : c.network.Clear
  node : c.network.system.network.self.id = c.metadataNodeId

theorem Attached.settled (attached : c.Attached) (request : Frame) {s : System}
    (self : s.network.self = c.network.system.network.self) :
    Attached { c with network := c.network.settled request s } :=
  ⟨attached.clear.settled request s, (congrArg NodeIdentity.id self).trans attached.node⟩

/-- A call whose request is handled while the client waits. -/
theorem call_attended {quiet : SystemEvent → Prop} {holds : System → Env → List (List Act) → Prop} {I : System → Prop}
    (id : UInt64) (kind : ClientKind) (bytes : kind.Value → Bytes) (body : BinaryReader → Except Exn Bool)
    {J : kind.Value → System → Prop} {job : ClientJob} {event : ClientEvent} {request : Frame} (attached : c.Attached)
    (attended : c.network.Attended quiet holds)
    (background : ∀ e, quiet e → e.Background) (start : I c.network.system)
    (keeps : ∀ s s' e, quiet e → I s → s.next e = .ok s' → I s')
    (keeps' : ∀ value s s' e, quiet e → J value s → s.next e = .ok s' → J value s')
    (read : NodeJob.of (request.from ⟨c.network.client, .client⟩) = .ok (some (.client event)))
    (answered : ∀ s env during, I s → holds s env during →
      ∃ value s', s.Replies event env during (kind.codec.encode id value) s' ∧ J value s')
    (finds : ∀ value, kind.codec.Finds value job .response (bytes value))
    (short : ∀ value s, J value s → (bytes value).length < 2 ^ 31)
    (accepts : ∀ value s, J value s → Rpc.makeMessageIs id job .response c.metadataNodeId body
      ((kind.codec.encode id value).from c.network.system.network.self) = true) (seconds : Nat) :
    ∃ m value s n,
      (Network.receiveIf seconds (Rpc.makeMessageIs id job .response c.metadataNodeId body)
        (Network.send c.metadataNodeId request c.network)).2 = n ∧
      c.call id job seconds body request = (.ok (.ok m), { c with network := n }) ∧
      kind.codec.decode m = .ok (kind.codec.received ⟨id, c.network.system.network.self⟩ value) ∧ J value s ∧
      Attached { c with network := n } ∧ n.client = c.network.client ∧ n.system = s.delivered := by
  obtain ⟨_, s, ⟨value, rfl, behind⟩, self, received⟩ := attended.receives
    (J := fun reply s => ∃ value, reply = kind.codec.encode id value ∧ J value s)
    attached.clear start background keeps
    (fun reply s s' e quiet ⟨value, same, kept⟩ stepped => ⟨value, same, keeps' value s s' e quiet kept stepped⟩)
    read
    (fun s env during kept holds => by
      obtain ⟨value, s', replies, behind⟩ := answered s env during kept holds
      exact ⟨_, s', replies, value, rfl, behind⟩)
    (fun reply s ⟨value, same, kept⟩ => same ▸ accepts value s kept)
    c.metadataNodeId seconds
  obtain ⟨m, called, decoded⟩ := call_response (finds value) (short value s behind) received
  exact ⟨m, value, s, _, congrArg Prod.snd received, called, decoded, behind, attached.settled _ self, rfl, rfl⟩

/-! ## The calls of `write_file` -/

/-- Both replicas store the chunk in time. -/
def Stored (context : RequestContext) (s : System) (env : Env) (during : List (List Act)) : Prop :=
  env.Healthy ∧ (∀ acts ∈ during, ∀ a ∈ acts, a.Under healthy) ∧
    ∀ write, s.worker.findWrite context = some write → RepliesInTime write.replicas during

theorem writeChunk_called (attached : c.Attached) (uploading : Uploading (c.network.context id) write chunks c.network.system)
    (length : data.length = (expectedSize write.fileSize write.nextChunk).toNat)
    (attended : c.network.Attended SystemEvent.Smooth (Stored (c.network.context id))) :
    ∃ m n, (writeReply c.metadataNodeId id write.nextChunk data c.network).2 = n ∧
      c.call id .writeChunk timeout (Rpc.matchChunk write.nextChunk) (ClientProtocol.encodeWriteChunkRequest id
        { chunkIndex := write.nextChunk, data, context := noContext }) = (.ok (.ok m), { c with network := n }) ∧
      ClientProtocol.decodeWriteChunkResponse m =
        .ok { chunkIndex := write.nextChunk, status := .success, context := ⟨id, c.network.system.network.self⟩ } ∧
      Attached { c with network := n } ∧ n.client = c.network.client ∧
      (write.nextChunk + 1 ≠ write.chunkCount →
        Uploading (c.network.context id) { write with nextChunk := write.nextChunk + 1 } (chunks ++ [data]) n.system) ∧
      (write.nextChunk + 1 = write.chunkCount → (chunks ++ [data]).flatten.length = write.fileSize.toNat →
        Provides write.path (chunks ++ [data]).flatten n.system) := by
  set context := c.network.context id
  have short : data.length ≤ chunkSize := length.trans_le (expectedSize_le _ _)
  obtain ⟨m, _, s, n, received, called, decoded, ⟨rfl, more, last⟩, attached', client, system⟩ :=
    call_attended id .writeChunkResponse _ (Rpc.matchChunk write.nextChunk) (I := Uploading context write chunks)
    (J := fun response s => response = { chunkIndex := write.nextChunk, status := .success, context } ∧
      (write.nextChunk + 1 ≠ write.chunkCount →
        Uploading context { write with nextChunk := write.nextChunk + 1 } (chunks ++ [data]) s) ∧
      (write.nextChunk + 1 = write.chunkCount → (chunks ++ [data]).flatten.length = write.fileSize.toNat →
        Provides write.path (chunks ++ [data]).flatten s))
    attached attended (fun _ => Smooth.background) uploading
    (fun s s' e smooth kept stepped => kept.smooth smooth stepped)
    (fun response s s' e smooth ⟨same, more, last⟩ stepped => ⟨same, fun part => (more part).smooth smooth stepped,
      fun final sized => (last final sized).unchanged (Background.unchanged (Smooth.background smooth) stepped)⟩)
    (NodeJob.of_client rfl (ClientEvent.of_writeChunk short))
    (fun s env during kept ⟨fine, under, inTime⟩ => by
      obtain ⟨s', replies, more, last⟩ := kept.accepts fine length under (inTime write kept.found)
      exact ⟨_, s', replies, rfl, more, fun final sized => (last final sized).provides⟩)
    ClientKind.finds_writeChunkResponse (fun _ _ _ => by simp [Dfs.write])
    (fun response s ⟨same, _⟩ => by
      rw [same]
      exact (Rpc.makeMessageIs_chunk (by simp [Dfs.write]) _ _).2 ⟨attached.node, rfl, rfl, rfl, rfl⟩)
    timeout
  exact ⟨m, n, received, called, decoded, attached', client, fun part => system ▸ (more part).delivered,
    fun final sized => system ▸ (last final sized).delivered⟩

/-- No file call of the handler fails, and the storage nodes for the bytes are there. -/
def Hosts (path b : Bytes) (s : System) (env : Env) (_ : List (List Act)) : Prop :=
  env.Healthy ∧ (b ≠ [] → s.worker.Supplied path ∧ ∀ node, s.worker.isAvailable node = true → s.Joined node)

theorem writeFile_called {fileSize : UInt64} {chunkCount : UInt32} (attached : c.Attached) (reached : c.network.system.Reached)
    (rest : c.network.system.AtRest) (stranger : ¬ c.network.system.Joined c.network.client)
    (size : fileSize.toNat = b.length) (sized : chunksOf fileSize = chunkCount.toUInt64)
    (valid : MetadataStore.validFilename path = true)
    (writable : MetadataStore.Writable c.network.system.worker.store.disk.tree (MetadataStore.physical path))
    (read : ClientEvent.of ((ClientProtocol.encodeWriteFileRequest id { fileSize, chunkCount, path, context := noContext }).from
      ⟨c.network.client, .client⟩) = .ok (.writeFile { fileSize, chunkCount, path, context := c.network.context id }))
    (attended : c.network.Attended SystemEvent.Smooth (Hosts path b)) :
    ∃ m n, (writeFileReply c.metadataNodeId id fileSize chunkCount path c.network).2 = n ∧
      c.call id .writeFile timeout Rpc.matchAnyBody (ClientProtocol.encodeWriteFileRequest id
        { fileSize, chunkCount, path, context := noContext }) = (.ok (.ok m), { c with network := n }) ∧
      ClientProtocol.decodeWriteFileResponse m = .ok { status := .success, context := ⟨id, c.network.system.network.self⟩ } ∧
      Attached { c with network := n } ∧ n.client = c.network.client ∧
      (b ≠ [] → ∃ write, write.path = path ∧ write.fileSize = fileSize ∧ write.chunkCount = chunkCount ∧ write.nextChunk = 0 ∧
        Uploading (c.network.context id) write [] n.system) ∧
      (b = [] → Provides path [] n.system) := by
  set context := c.network.context id
  let req : WriteFileRequest := { fileSize, chunkCount, path, context }
  have none : chunkCount = 0 ↔ b = [] := by
    have count := chunkCount_toNat sized
    rw [size, chunkSize] at count
    rw [← UInt32.toNat_inj, ← List.length_eq_zero_iff, UInt32.toNat_zero]
    omega
  obtain ⟨m, _, s, n, received, called, decoded, ⟨rfl, more, last⟩, attached', client, system⟩ :=
    call_attended id .writeFileResponse (fun response => write response.status) Rpc.matchAnyBody
    (I := fun s => s.Reached ∧ s.AtRest ∧ ¬ s.Joined c.network.client ∧
      MetadataStore.Writable s.worker.store.disk.tree (MetadataStore.physical path))
    (J := fun response s => response = { status := .success, context } ∧
      (b ≠ [] → ∃ x replicas, Uploading context (MetadataWorker.sessionOf req x replicas) [] s) ∧ (b = [] → Provides path [] s))
    attached attended (fun _ => Smooth.background) ⟨reached, rest, stranger, writable⟩
    (fun s s' e smooth kept stepped => by
      obtain ⟨reached, rest, stranger, writable⟩ := kept
      refine ⟨Smooth.reached reached smooth stepped, rest.smooth smooth stepped,
        (Background.unchanged (Smooth.background smooth) stepped).strangers _ stranger, ?_⟩
      rw [(Smooth.same smooth stepped).store]
      exact writable)
    (fun response s s' e smooth kept stepped => by
      obtain ⟨same, more, last⟩ := kept
      refine ⟨same, fun some => ?_, fun empty => (last empty).unchanged (Background.unchanged (Smooth.background smooth) stepped)⟩
      obtain ⟨x, replicas, uploading⟩ := more some
      exact ⟨x, replicas, uploading.smooth smooth stepped⟩)
    (NodeJob.of_client rfl read)
    (fun s env during kept attending => by
      obtain ⟨reached, rest, stranger, writable⟩ := kept
      obtain ⟨fine, hosts⟩ := attending
      have receptive : s.Receptive req :=
        ⟨sized, valid, writable, fun some => (hosts (mt none.2 some)).1, fun some => (hosts (mt none.2 some)).2⟩
      by_cases empty : b = []
      · obtain ⟨s', replies, contains⟩ := receptive.empties reached rest stranger fine during (none.2 empty)
        exact ⟨_, s', replies, rfl, fun some => absurd empty some, fun _ => contains.provides⟩
      · obtain ⟨s', x, replicas, replies, uploading⟩ := receptive.begins reached rest stranger fine during (mt none.1 empty)
        exact ⟨_, s', replies, rfl, fun _ => ⟨x, replicas, uploading⟩, fun none => absurd none empty⟩)
    (fun response => ClientKind.finds_one (fun context status => ⟨status, context⟩) trivial (fun _ => rfl) (.inr rfl)
      (fun _ => rfl) rfl)
    (fun _ _ _ => by simp [Dfs.write])
    (fun response s _ => (Rpc.makeMessageIs_any (by simp [Dfs.write]) _ _).2 ⟨attached.node, rfl, rfl, rfl⟩)
    timeout
  refine ⟨m, n, received, called, decoded, attached', client, fun some => ?_, fun empty => system ▸ (last empty).delivered⟩
  obtain ⟨x, replicas, uploading⟩ := more some
  exact ⟨_, rfl, rfl, rfl, rfl, system ▸ uploading.delivered⟩

/-! ## The calls of `read_file` -/

/-- One of the replicas gives chunk `k`, whatever comes of the other one. -/
def Fetched (context : RequestContext) (k : UInt32) (s : System) (env : Env) (during : List (List Act)) : Prop :=
  ∀ read, s.worker.findRead context = some read → System.Fetchable { chunkIndex := k, context } read.objectId
    (expectedSize read.fileSize k).toUInt32 read.replicas (s.prepared env during)

theorem readChunk_called (attached : c.Attached) (downloading : Downloading (c.network.context id) read b c.network.system)
    (attended : c.network.Attended SystemEvent.Background (Fetched (c.network.context id) read.nextChunk)) :
    ∃ m n, (chunkReply c.metadataNodeId id read.nextChunk c.network).2 = n ∧
      c.call id .readChunk readChunkTimeout (Rpc.matchChunk read.nextChunk) (ClientProtocol.encodeReadChunkRequest id
        { chunkIndex := read.nextChunk, context := noContext }) = (.ok (.ok m), { c with network := n }) ∧
      ClientProtocol.decodeReadChunkResponse m = .ok { chunkIndex := read.nextChunk, status := .success
                                                       data := piece b read.nextChunk.toNat
                                                       context := ⟨id, c.network.system.network.self⟩ } ∧
      Attached { c with network := n } ∧ n.client = c.network.client ∧
      (read.nextChunk + 1 ≠ read.chunkCount →
        Downloading (c.network.context id) { read with nextChunk := read.nextChunk + 1 } b n.system) := by
  set context := c.network.context id
  have short : (Dfs.write read.nextChunk ++ (Dfs.write ClientStatus.success ++ piece b read.nextChunk.toNat)).length < 2 ^ 31 := by
    rw [List.length_append, List.length_append, piece_length, chunkSize]
    simp [Dfs.write]
    omega
  obtain ⟨m, _, s, n, received, called, decoded, ⟨rfl, more⟩, attached', client, system⟩ :=
    call_attended id .readChunkResponse _ (Rpc.matchChunk read.nextChunk) (I := Downloading context read b)
    (J := fun response s => response = { chunkIndex := read.nextChunk, status := .success
                                         data := piece b read.nextChunk.toNat, context } ∧
      (read.nextChunk + 1 ≠ read.chunkCount → Downloading context { read with nextChunk := read.nextChunk + 1 } b s))
    attached attended (fun _ background => background) downloading
    (fun s s' e background kept stepped => kept.unchanged (Background.unchanged background stepped))
    (fun response s s' e background kept stepped =>
      ⟨kept.1, fun part => (kept.2 part).unchanged (Background.unchanged background stepped)⟩)
    (NodeJob.of_client rfl ClientEvent.of_readChunk)
    (fun s env during kept fetched => by
      obtain ⟨s', replies, more⟩ := @Downloading.replies s read b env during _ kept rfl (fetched read kept.found)
      exact ⟨_, s', replies, rfl, more⟩)
    ClientKind.finds_readChunkResponse (fun response s kept => kept.1 ▸ short)
    (fun response s kept => by
      rw [kept.1]
      exact (Rpc.makeMessageIs_chunk short _ _).2 ⟨attached.node, rfl, rfl, rfl, rfl⟩)
    readChunkTimeout
  exact ⟨m, n, received, called, decoded, attached', client, fun part => system ▸ (more part).delivered⟩

/-- There is a replica to read from. -/
def Offered (path b : Bytes) (s : System) (_ : Env) (_ : List (List Act)) : Prop := b ≠ [] → s.Readable path

theorem readFile_called (attached : c.Attached) (provides : Provides path b c.network.system)
    (stranger : ¬ c.network.system.Joined c.network.client) (fits : (b.length + (chunkSize - 1)) / chunkSize < 2 ^ 32)
    (read : ClientEvent.of ((ClientProtocol.encodeReadFileRequest id { path, context := noContext }).from
      ⟨c.network.client, .client⟩) = .ok (.readFile { path, context := c.network.context id }))
    (attended : c.network.Attended SystemEvent.Background (Offered path b)) :
    ∃ m n fileSize chunkCount,
      (Network.receiveIf timeout (Rpc.makeMessageIs id ClientJob.readFile .response c.metadataNodeId Rpc.matchAnyBody)
        (Network.send c.metadataNodeId (ClientProtocol.encodeReadFileRequest id { path, context := noContext }) c.network)).2 = n ∧
      c.call id .readFile timeout Rpc.matchAnyBody (ClientProtocol.encodeReadFileRequest id
        { path, context := noContext }) = (.ok (.ok m), { c with network := n }) ∧
      ClientProtocol.decodeReadFileResponse m =
        .ok { status := .success, fileSize, chunkCount, context := ⟨id, c.network.system.network.self⟩ } ∧
      fileSize.toNat = b.length ∧ chunksOf fileSize = chunkCount.toUInt64 ∧
      Attached { c with network := n } ∧ n.client = c.network.client ∧
      (b ≠ [] → ∃ read, read.fileSize = fileSize ∧ read.chunkCount = chunkCount ∧ read.nextChunk = 0 ∧
        Downloading (c.network.context id) read b n.system) := by
  set context := c.network.context id
  obtain ⟨m, _, s, n, received, called, decoded, ⟨fileSize, chunkCount, rfl, size, sized, more⟩, attached', client, system⟩ :=
    call_attended id .readFileResponse _ Rpc.matchAnyBody
    (I := fun s => Provides path b s ∧ ¬ s.Joined c.network.client)
    (J := fun response s => ∃ fileSize chunkCount, response = { status := .success, fileSize, chunkCount, context } ∧
      fileSize.toNat = b.length ∧ chunksOf fileSize = chunkCount.toUInt64 ∧
      (b ≠ [] → ∃ read, read.fileSize = fileSize ∧ read.chunkCount = chunkCount ∧ read.nextChunk = 0 ∧
        Downloading context read b s))
    attached attended (fun _ background => background) ⟨provides, stranger⟩
    (fun s s' e background ⟨provides, stranger⟩ stepped =>
      have unchanged := Background.unchanged background stepped
      ⟨provides.unchanged unchanged, unchanged.strangers _ stranger⟩)
    (fun response s s' e background ⟨fileSize, chunkCount, same, size, sized, more⟩ stepped =>
      ⟨fileSize, chunkCount, same, size, sized, fun some => (more some).imp fun read => by
        rintro ⟨size, count, zero, downloading⟩
        exact ⟨size, count, zero, downloading.unchanged (Background.unchanged background stepped)⟩⟩)
    (NodeJob.of_client rfl read)
    (fun s env during ⟨provides, stranger⟩ offered => by
      obtain ⟨fileSize, chunkCount, s', replies, size, sized, more⟩ :=
        @Provides.replies s b { path, context } provides stranger fits offered env during
      exact ⟨_, s', replies, fileSize, chunkCount, rfl, size, sized, more⟩)
    ClientKind.finds_readFileResponse (fun _ _ _ => by simp [Dfs.write])
    (fun response s _ => (Rpc.makeMessageIs_any (by simp [Dfs.write]) _ _).2 ⟨attached.node, rfl, rfl, rfl⟩)
    timeout
  refine ⟨m, n, fileSize, chunkCount, received, called, decoded, size, sized, attached', client, fun some => ?_⟩
  obtain ⟨read, size, count, zero, downloading⟩ := more some
  exact ⟨read, size, count, zero, system ▸ downloading.delivered⟩

end Client

end Dfs
