import Dfs.Client.RoundTrip
import Dfs.System.Snapshots

/-!
# A reader among other clients

What `read_file` puts at its destination is one version of the file, whatever else is going on: other
clients upload, rename and remove what they like as long as they leave this file alone, requests and answers are
late or lost, and storage nodes fail.
-/

namespace Dfs

open Lib

/-! ## What an answer tells -/

/-- Where the frame is taken for an answer to the request with the id, it tells the size of `b` or a chunk of it. -/
structure Faithful (id : UInt64) (sender : NodeIdentity) (b : Bytes) (frame : Frame) : Prop where
  file : ∀ node body, Rpc.makeMessageIs id ClientJob.readFile .response node body (frame.from sender) = true →
    ∀ fileSize count, Client.announcedBy (frame.from sender) = some (fileSize, count) → fileSize.toNat = b.length
  chunk : ∀ node i, Rpc.makeMessageIs id ClientJob.readChunk .response node (Rpc.matchChunk i) (frame.from sender) = true →
    ∀ fileSize data, Client.chunkFrom fileSize i (frame.from sender) = some data → data = piece b i.toNat

section Faithful

variable {id requestId : UInt64} {sender : NodeIdentity} {b : Bytes} {frame : Frame} {event : ClientEvent}
  {status : ClientStatus}

theorem Service.Unrelated.faithful (unrelated : Service.Unrelated id sender frame) : Faithful id sender b frame where
  file _ _ accepted := by rw [unrelated] at accepted; cases accepted
  chunk _ _ accepted := by rw [unrelated] at accepted; cases accepted

/-- Answers to requests of other kinds tell nothing. -/
theorem Responds.faithful (responds : Responds event status frame) (noFile : event.job ≠ .readFile)
    (noChunk : event.job ≠ .readChunk) : Faithful id sender b frame where
  file _ _ accepted := absurd ((RequestKey.of_responds responds).accepted accepted).2.1 noFile
  chunk _ _ accepted := absurd ((RequestKey.of_responds responds).accepted accepted).2.1 noChunk

theorem readFileResponse_faithful (response : ReadFileResponse)
    (tells : response.status = .success → response.fileSize.toNat = b.length) :
    Faithful id sender b (ClientProtocol.encodeReadFileResponse requestId response) where
  file _ _ accepted fileSize count announced := by
    obtain ⟨message, read, -, -, decoded⟩ :=
      (ClientKind.finds_readFileResponse response).receive (by simp [write]) requestId sender
    change Rpc.readMessage ClientJob ((ClientProtocol.encodeReadFileResponse requestId response).from sender) = _ at read
    rw [Client.announcedBy_eq read decoded] at announced
    split at announced
    · rename_i good
      cases announced
      exact tells good.1
    · cases announced
  chunk _ _ accepted := by
    obtain ⟨-, -, job, -⟩ := Rpc.makeMessageIs_accepts accepted
    cases job

theorem chunkFrom_some {fileSize : UInt64} {i : UInt32} {message : Message} {data : Bytes}
    (found : Client.chunkFrom fileSize i message = some data) :
    ∃ rpcMessage response, Rpc.readMessage ClientJob message = .ok rpcMessage ∧
      ClientProtocol.decodeReadChunkResponse rpcMessage = .ok response ∧ response.status = .success ∧ response.chunkIndex = i ∧
      response.data = data := by
  cases read : Rpc.readMessage ClientJob message with
  | error e => simp [Client.chunkFrom, read, bind, Except.bind] at found
  | ok rpcMessage =>
      cases decoded : ClientProtocol.decodeReadChunkResponse rpcMessage with
      | error e => simp [Client.chunkFrom, read, decoded, bind, Except.bind] at found
      | ok response =>
          rw [Client.chunkFrom_eq read decoded] at found
          split at found
          · rename_i good
            cases found
            exact ⟨rpcMessage, response, rfl, decoded, good.1, good.2.1, rfl⟩
          · cases found

theorem readChunkResponse_faithful (req : ReadChunkRequest) {data : Bytes}
    (tells : status = .success → data = piece b req.chunkIndex.toNat) :
    Faithful id sender b (ClientProtocol.encodeReadChunkResponse req.context.requestId
      { chunkIndex := req.chunkIndex, status, data, context := req.context }) where
  file _ _ accepted := by
    obtain ⟨-, -, job, -⟩ := Rpc.makeMessageIs_accepts accepted
    cases job
  chunk _ i accepted fileSize got found := by
    let response : ReadChunkResponse := { chunkIndex := req.chunkIndex, status, data, context := req.context }
    obtain ⟨rpcMessage, response', read, decoded, success, index, same⟩ := chunkFrom_some found
    -- the status is read whatever the data are, and with it they are known to be short
    have responds : Responds (.readChunk req) status (ClientProtocol.encodeReadChunkResponse req.context.requestId response) :=
      ⟨data, rfl⟩
    have answered : status = .success := (readChunkResponse_said responds rfl read decoded).symm.trans success
    have short : data.length ≤ chunkSize := by
      rw [tells answered, piece_length]
      exact Nat.min_le_left _ _
    have small : (write response.chunkIndex ++ (write response.status ++ response.data)).length < 2 ^ 31 := by
      rw [chunkSize] at short
      simp [write, response]
      omega
    obtain ⟨message, read', -, -, decoded'⟩ :=
      (ClientKind.finds_readChunkResponse response).receive small req.context.requestId sender
    cases read.symm.trans read'
    cases decoded.symm.trans decoded'
    exact same.symm.trans ((tells answered).trans (congrArg (fun k : UInt32 => piece b k.toNat) index))

end Faithful

namespace Service

open Dfs.System MetadataState MetadataStore

variable {n : Service} {id : UInt64} {x b : Bytes} {s : System} {event : ClientEvent} {env : Env} {script : List (List Act)}

/-- The file stands, the session of the id reads it, and every answer to the id that can still come tells of it. -/
structure Consistent (id : UInt64) (x b : Bytes) (n : Service) : Prop where
  watched : ∃ k replicas, n.system.Watched k x b replicas
  session : ∀ read, n.system.worker.findRead (n.context id) = some read → read.objectId = x
  answers : ∀ frame, n.Around frame → Faithful id n.system.network.self b frame

/-- The `ReadFile` with the id, where it is one, names the file with the object. -/
def Names (id : UInt64) (x : Bytes) (s : System) : ClientEvent → Prop
  | .readFile req => req.context.requestId = id → ∀ m, s.worker.store.data.lookup (key req.path) = some m → m.objId = x
  | _ => True

/-- What the request of the client's asks for. -/
def requested (n : Service) (i : Nat) : Option ClientEvent :=
  n.requests[i]?.bind fun frame =>
    match NodeJob.of (frame.from ⟨n.client, .client⟩) with
    | .ok (some (.client event)) => some event
    | _ => none

/-- The step leaves the file alone, and the request for it finds it at its path. -/
def Permits (id : UInt64) (x : Bytes) (n : Service) : ServiceAct → Prop
  | .handle i env script => ∀ event, n.requested i = some event →
      Unobtrusive x n.system (.request event env script) ∧ Names id x n.system event
  | .other event => Unobtrusive x n.system event ∧ event.From NodeClean
  | _ => True

theorem readFile_next {req : ReadFileRequest} {s s' : System} (h : s.next (.request (.readFile req) env script) = .ok s') :
    ∃ status fileSize chunkCount s₁, (s.prepared env script).readFile req = ((status, fileSize, chunkCount), s₁) ∧
      s' = s₁.send req.context.sender.id (ClientProtocol.encodeReadFileResponse req.context.requestId
        { status, fileSize, chunkCount, context := req.context }) := by
  have handled := next_request h
  cases handled
  exact ⟨_, _, _, _, rfl, rfl⟩

theorem readChunk_next {req : ReadChunkRequest} {s s' : System} (h : s.next (.request (.readChunk req) env script) = .ok s') :
    ∃ status data s₁, (s.prepared env script).readChunk req = ((status, data), s₁) ∧
      s' = s₁.send req.context.sender.id (ClientProtocol.encodeReadChunkResponse req.context.requestId
        { chunkIndex := req.chunkIndex, status, data, context := req.context }) := by
  have handled := next_request h
  cases handled
  exact ⟨_, _, _, rfl, rfl⟩

instance (id : UInt64) (x : Bytes) (s : System) (event : ClientEvent) : Decidable (Names id x s event) :=
  match event with
  | .readFile req => decidable_of_iff (req.context.requestId = id →
      ((s.worker.store.data.lookup (key req.path)).all fun m => decide (m.objId = x)) = true) (by
        simp [Names, Option.all_eq_true])
  | .readChunk _ | .createFile _ | .writeFile _ | .writeChunk _ | .remove _ | .list _ | .makeDir _ | .rename _ | .stat _ =>
      .isTrue trivial

instance (id : UInt64) (x : Bytes) (n : Service) (a : ServiceAct) : Decidable (n.Permits id x a) :=
  match a with
  | .handle i env script => decidable_of_iff (((n.requested i).all fun event =>
      decide (Unobtrusive x n.system (.request event env script) ∧ Names id x n.system event)) = true) (by
        simp only [Permits, Option.all_eq_true, decide_eq_true_eq])
  | .other event => inferInstanceAs (Decidable (_ ∧ _))
  | .arrive _ | .loseAnswer _ => .isTrue trivial

/-- What is answered where the session of the request is for the file. -/
theorem answered_faithful (informs : Informs x b n.system (.request event env script))
    (session : ∀ read, n.system.worker.findRead event.context = some read → read.objectId = x)
    (names : Names id x n.system event) (own : event.context.requestId = id)
    (stepped : n.system.next (.request event env script) = .ok s) :
    s.network.self = n.system.network.self ∧ ∃ frame, Faithful id n.system.network.self b frame ∧
      ∀ a ∈ s.network.answers,
        a ∈ n.system.network.answers ∨ a.2.header.type ≠ .clientRpc ∨ a = (event.context.sender.id, frame) := by
  have other : event.job ≠ .readFile → event.job ≠ .readChunk → s.network.self = n.system.network.self ∧
      ∃ frame, Faithful id n.system.network.self b frame ∧ ∀ a ∈ s.network.answers,
        a ∈ n.system.network.answers ∨ a.2.header.type ≠ .clientRpc ∨ a = (event.context.sender.id, frame) := by
    intro noFile noChunk
    obtain ⟨status, frame, s₁, result, responds, rfl⟩ := handle_handled (next_request stepped)
    obtain ⟨self, answers⟩ := System.handled_answers result event.context.sender.id
    exact ⟨self, frame, responds.faithful noFile noChunk, answers⟩
  cases event with
  | readFile req =>
      obtain ⟨status, fileSize, chunkCount, s₁, run, rfl⟩ := readFile_next stepped
      have handled : MetadataState.Handled env (n.system.prepared env script) (.readFile req) status s₁ :=
        .readFile req _ _ run
      obtain ⟨self, answers⟩ := System.handled_answers handled req.context.sender.id
      refine ⟨self, _, readFileResponse_faithful _ fun success => ?_, answers⟩
      dsimp only at success ⊢
      subst success
      cases readFile_does run with
      | refused _ bad => exact absurd rfl bad
      | empty m found none => exact (informs m found (names own m found) _ _ _ run).1
      | opened m found some free => exact (informs m found (names own m found) _ _ _ run).1
  | readChunk req =>
      obtain ⟨status, data, s₁, run, rfl⟩ := readChunk_next stepped
      have handled : MetadataState.Handled env (n.system.prepared env script) (.readChunk req) status s₁ :=
        .readChunk req _ _ run
      obtain ⟨self, answers⟩ := System.handled_answers handled req.context.sender.id
      refine ⟨self, _, readChunkResponse_faithful req fun success => ?_, answers⟩
      subst success
      cases readChunk_does run with
      | refused _ _ bad => exact absurd rfl bad
      | fetched read found => exact (informs read found (session read found) data s₁ run).2
  | _ => exact other (fun h => by cases h) (fun h => by cases h)

/-- A request is handled, for the client or for another one. -/
theorem Consistent.handled (consistent : n.Consistent id x b) (unobtrusive : Unobtrusive x n.system (.request event env script))
    (own : event.context.sender.id = n.client → event.context.requestId = id →
      event.context = n.context id ∧ Names id x n.system event)
    (stepped : n.system.next (.request event env script) = .ok s) : Consistent id x b { n with system := s } := by
  obtain ⟨k, replicas, watched⟩ := consistent.watched
  have heard : SystemEvent.From NodeClean (.request event env script) := trivial
  have informs := watched.informs unobtrusive
  refine ⟨⟨_, replicas, watched.next heard unobtrusive stepped⟩, ?_, fun frame there => ?_⟩
  · intro read found
    rcases handle_findRead (next_request stepped) found with
      ⟨read₀, before, object, -⟩ | ⟨req, m, rfl, client, same, there, -, rfl⟩
    · exact object.trans (consistent.session read₀ before)
    · exact (own client.symm same.symm).2 same.symm m there
  by_cases mine : event.context.sender.id = n.client ∧ event.context.requestId = id
  · obtain ⟨context, names⟩ := own mine.1 mine.2
    have session : ∀ read, n.system.worker.findRead event.context = some read → read.objectId = x := by
      rw [context]
      exact consistent.session
    obtain ⟨self, answer, faithful, answers⟩ := answered_faithful informs session names mine.2 stepped
    change Faithful id s.network.self b frame
    rw [self]
    rcases there with queued | under
    · exact consistent.answers frame (.inl queued)
    · rcases answers _ under with old | foreign | new
      · exact consistent.answers frame (.inr old)
      · exact (unrelated_of_type foreign).faithful
      · obtain ⟨-, rfl⟩ := Prod.mk.inj new
        exact faithful
  · obtain ⟨-, self, -, -, around⟩ := Aside.handled (not_and_or.1 mine) stepped
    rw [self]
    exact (around frame there).elim (consistent.answers frame) fun foreign => foreign.faithful

/-- Of the answers some may get lost. -/
theorem watched_answers {k : FilePath} {replicas : NodeId × NodeId} (watched : s.Watched k x b replicas)
    (answers : List (NodeId × Frame)) : System.Watched k x b replicas { s with network := { s.network with answers } } where
  reached :=
    { removable :=
        { sturdy := { watched.reached.removable.sturdy with }
          ordinary := ⟨watched.reached.removable.ordinary.peers, watched.reached.removable.ordinary.queue⟩
          generated := watched.reached.removable.generated }
      paired := watched.reached.paired }
  sessions := watched.sessions
  standing :=
    { generated := watched.standing.generated
      custody := watched.standing.custody
      kept := fun some => (watched.standing.kept some).of_peers rfl rfl
      reads := fun context read found same =>
        (watched.standing.reads context read found same).imp_right fun kept => kept.of_peers rfl rfl }
  collected := ⟨⟨watched.collected.traced.inbox, watched.collected.traced.outbox, watched.collected.traced.queue⟩,
    watched.collected.script, watched.collected.below⟩

theorem Consistent.dropAnswer (consistent : n.Consistent id x b) (i : Nat) : (n.dropAnswer i).Consistent id x b := by
  obtain ⟨k, replicas, watched⟩ := consistent.watched
  exact ⟨⟨k, replicas, watched_answers watched _⟩, consistent.session, fun frame there =>
    consistent.answers frame (there.imp_right List.mem_of_mem_eraseIdx)⟩

theorem Consistent.arrive (consistent : n.Consistent id x b) (i : Nat) : (n.arrive i).Consistent id x b := by
  unfold Service.arrive
  split
  · exact consistent
  rename_i node frame found
  split
  · rename_i here
    subst here
    obtain ⟨watched, session, answers⟩ := consistent.dropAnswer i
    refine ⟨watched, session, fun other there => ?_⟩
    rcases there with queued | under
    · rcases List.mem_append.1 queued with old | new
      · exact consistent.answers other (.inl old)
      · rw [List.mem_singleton.1 new]
        exact consistent.answers frame (.inr (List.mem_of_getElem? found))
    · exact answers other (.inr under)
  · exact consistent

theorem Consistent.other (consistent : n.Consistent id x b) {e : SystemEvent} (unobtrusive : Unobtrusive x n.system e)
    (heard : e.From NodeClean) (foreign : e.requester ≠ some n.client) (stepped : n.system.next e = .ok s) :
    Consistent id x b { n with system := s } := by
  have quiet : s.worker.pendingReads = n.system.worker.pendingReads → Consistent id x b { n with system := s } := fun same => by
    obtain ⟨k, replicas, watched⟩ := consistent.watched
    have aside : Aside id n { n with system := s } := .other foreign stepped
    obtain ⟨-, self, -, -, around⟩ := aside
    refine ⟨⟨_, replicas, watched.next heard unobtrusive stepped⟩, fun read found => consistent.session read ?_,
      fun frame there => ?_⟩
    · rw [MetadataWorker.findRead, ← same]
      exact found
    · rw [self]
      exact (around frame there).elim (consistent.answers frame) fun foreign => foreign.faithful
  cases e with
  | request event env script =>
      exact consistent.handled unobtrusive (fun same => absurd (congrArg some same) foreign) stepped
  | _ =>
      cases stepped
      exact quiet rfl

theorem Consistent.act (consistent : n.Consistent id x b) {a : ServiceAct} (permits : n.Permits id x a) :
    (n.act a).Consistent id x b := by
  have ended : ∀ {n : Service}, n.Consistent id x b → Consistent id x b { n with ended := true } := fun h =>
    ⟨h.watched, h.session, h.answers⟩
  cases a with
  | arrive i => exact consistent.arrive i
  | loseAnswer i => exact consistent.dropAnswer i
  | other event =>
      rw [Service.act]
      split
      · exact consistent
      rename_i runs
      rw [Service.step]
      split
      · exact ended consistent
      · rename_i stepped
        exact consistent.other permits.1 permits.2 (not_or.1 runs).2 stepped
  | handle i env script =>
      rw [Service.act]
      split
      · exact consistent
      rw [Service.handle]
      split
      · exact consistent
      rename_i frame found
      have less : Consistent id x b { n with requests := n.requests.eraseIdx i } :=
        ⟨consistent.watched, consistent.session, consistent.answers⟩
      dsimp only
      split
      · exact ended less
      · rename_i event decoded
        rw [Service.step]
        split
        · exact ended less
        · rename_i stepped
          have asked : n.requested i = some event := by rw [requested, found, Option.bind_some, decoded]
          obtain ⟨unobtrusive, names⟩ := permits event asked
          refine less.handled unobtrusive (fun _ same => ⟨?_, names⟩) stepped
          rw [Service.context, ← same, ← NodeJob.event_sender decoded]
      · exact less

theorem Consistent.acts {l : List ServiceAct} (consistent : n.Consistent id x b)
    (along : Along (fun n a => (.ok (n.act a) : Except Exn Service)) (Permits id x) n l) : (n.acts l).Consistent id x b := by
  induction l generalizing n with
  | nil => exact consistent
  | cons a l ih => exact ih (consistent.act along.1) (along.2 _ rfl)

/-- Every step is permitted from when the client sends the frame until it stops waiting for the answer. -/
def Permitted (id : UInt64) (x : Bytes) (frame : Frame) (n : Service) : Prop :=
  Along (fun n a => (.ok (n.act a) : Except Exn Service)) (Permits id x) { n.send frame with script := n.script.tail }
    (n.script.headD [])

/-- A request and the wait for its answer. -/
theorem Consistent.receives {frame : Frame} {metadata : NodeId} {seconds : Nat} {p : Message → Bool}
    (consistent : n.Consistent id x b) (permitted : n.Permitted id x frame) :
    Consistent id x b (Network.receiveIf seconds p (Network.send metadata frame n)).2 ∧
      ∀ message, (Network.receiveIf seconds p (Network.send metadata frame n)).1 = some message →
        p message = true ∧ ∃ answer sender, message = answer.from sender ∧ Faithful id sender b answer := by
  have sent : Consistent id x b { n.send frame with script := n.script.tail } :=
    ⟨consistent.watched, consistent.session, consistent.answers⟩
  have waited : Consistent id x b (n.send frame).await := sent.acts permitted
  refine ⟨?_, fun message got => ?_⟩
  · change Consistent id x b ((n.send frame).await.take p).2
    unfold Service.take
    split
    · exact waited
    rename_i answer messageQueue popped
    refine ⟨waited.watched, waited.session, fun other there => waited.answers other (there.imp_left fun mem => ?_)⟩
    cases (Prod.mk.inj popped).2
    exact List.mem_of_mem_eraseP mem
  · obtain ⟨answer, there, rfl⟩ := take_around got
    exact ⟨Service.take_accepts got, answer, _, rfl, waited.answers answer there⟩

/-- So it is during each wait for as many chunks from `i` on. -/
inductive ChunksPermitted (metadata : NodeId) (id : UInt64) (x : Bytes) : Nat → UInt32 → Service → Prop where
  | done (i : UInt32) (n : Service) : ChunksPermitted metadata id x 0 i n
  | chunk {left : Nat} {i : UInt32} {n : Service}
      (here : n.Permitted id x (ClientProtocol.encodeReadChunkRequest id { chunkIndex := i, context := Client.noContext }))
      (behind : ChunksPermitted metadata id x left (i + 1) (Client.chunkReply metadata id i n).2) :
      ChunksPermitted metadata id x (left + 1) i n

end Service

theorem pieces_flatten (b : Bytes) (n : Nat) : (pieces b 0 n).flatten = b.take (n * chunkSize) := by
  induction n with
  | zero => simp [pieces]
  | succ n ih =>
      rw [← take_append_piece, ← ih, pieces, List.range'_1_concat, List.map_append, List.flatten_append, pieces]
      simp

namespace Client

open Service MetadataStore

variable {x b fromPath toPath : Bytes} {id fileSize : UInt64} {metadata : NodeId}

/-- The chunks that are received are those of the file. -/
theorem Receives.pieces {left : Nat} {i : UInt32} {n : Service} {chunks : List Bytes}
    (receives : Receives metadata id fileSize left i n chunks) (permitted : ChunksPermitted metadata id x left i n)
    (consistent : n.Consistent id x b) (room : i.toNat + left < 2 ^ 32) : chunks = Dfs.pieces b i.toNat left := by
  induction receives with
  | done i n => rfl
  | @chunk left i n message data rest reply here behind ih =>
      obtain ⟨⟩ | ⟨wait, waits⟩ := permitted
      obtain ⟨consistent', answers⟩ := consistent.receives wait
      obtain ⟨accepted, answer, sender, rfl, faithful⟩ := answers message reply
      have next : (i + 1).toNat = i.toNat + 1 := by
        rw [UInt32.toNat_add]
        exact Nat.mod_eq_of_lt (by simp; omega)
      have others := ih waits consistent' (by omega)
      rw [pieces_succ, ← next, ← others, faithful.chunk _ _ accepted _ _ here]

/-- What a successful `read_file` has received. -/
theorem readFile_received {ν : Type} [Network ν] {c : Client ν} (success : (c.readFile fromPath toPath).1 = .ok (.ok ())) :
    ∃ message fileSize count chunks, (c.fileReply fromPath).1 = some message ∧ announcedBy message = some (fileSize, count) ∧
      chunksOf fileSize = count.toUInt64 ∧
      Receives c.metadataNodeId (c.currentId + 1) fileSize count.toNat 0 (c.fileReply fromPath).2 chunks ∧
      (c.readFile fromPath toPath).2.disk.tree.content (localPath toPath) = some chunks.flatten := by
  rw [readFile] at success ⊢
  let behind : Client ν := { c with currentId := c.currentId + 1, network := (c.fileReply fromPath).2 }
  cases reply : (c.fileReply fromPath).1 with
  | none =>
      rw [@call_timeout _ _ { c with currentId := c.currentId + 1 } _ _ _ _ _ reply] at success
      cases success
  | some message =>
      obtain ⟨-, rpcMessage, read, called⟩ := @call_received _ _ { c with currentId := c.currentId + 1 } _ _ _ _ _ _ reply
      rw [called] at success ⊢
      dsimp only at success ⊢
      cases decoded : ClientProtocol.decodeReadFileResponse rpcMessage with
      | error e =>
          rw [decoded] at success
          cases success
      | ok response =>
          rw [decoded] at success
          dsimp only at success ⊢
          have announced := announcedBy_eq read decoded
          by_cases granted : response.status = .success
          swap
          · rw [if_pos granted] at success
            cases success
          by_cases sized : chunksOf response.fileSize = response.chunkCount.toUInt64
          swap
          · rw [if_neg (not_not.2 granted), if_pos sized] at success
            cases success
          rw [if_neg (not_not.2 granted), if_neg (not_not.2 sized)] at success ⊢
          rw [if_pos ⟨granted, sized⟩] at announced
          by_cases none : toPath = []
          · rw [if_pos none] at success
            cases success
          rw [if_neg none] at success ⊢
          by_cases blocked : Fails c.disk.outcomes 0 ∨ c.disk.tree.kind (temporaryPath toPath (c.currentId + 1)) = some .dir
          · obtain ⟨e, d, refused⟩ := open_fails blocked
            rw [temporaryPath, localPath, refused] at success
            cases success
          obtain ⟨t, made, opened⟩ := open_creates blocked
          have source : t.content [toPath ++ temporarySuffix (c.currentId + 1)] = some [] := by
            rw [FileTree.setFile_content made, if_pos rfl]
          have ends := @readChunks_ends _ _ toPath (c.currentId + 1) response.fileSize _ (temporary_ne toPath (c.currentId + 1))
            response.chunkCount.toNat 0 { behind with disk := c.disk.drawn.reach t } [] source
          rw [temporaryPath, localPath, opened] at success ⊢
          obtain ⟨bytes, ⟨chunks, receives, whole⟩, content⟩ := ends.success success
          rw [List.nil_append] at whole
          exact ⟨message, _, _, chunks, rfl, announced, sized, receives, whole ▸ content⟩

variable {c : Client Service} {s₀ : System} {earlier : List NodeEvent} {k : FilePath} {replicas : NodeId × NodeId}

/-- From the request for the file to the last chunk no step touches it, and the request finds it at its path. -/
structure Undistracted (x b fromPath : Bytes) (c : Client Service) : Prop where
  file : c.network.Permitted (c.currentId + 1) x
    (ClientProtocol.encodeReadFileRequest (c.currentId + 1) { path := fromPath, context := noContext })
  chunks : ChunksPermitted c.metadataNodeId (c.currentId + 1) x (chunkNumber b) 0 (c.fileReply fromPath).2

/-- From a state in which the file stands. -/
theorem readFile_watched (watched : c.network.system.Watched k x b replicas) (unused : c.network.Unused (c.currentId + 1))
    (undistracted : Undistracted x b fromPath c) (success : (c.readFile fromPath toPath).1 = .ok (.ok ())) :
    (c.readFile fromPath toPath).2.disk.tree.content (localPath toPath) = some b := by
  have consistent : c.network.Consistent (c.currentId + 1) x b := by
    refine ⟨⟨k, replicas, watched⟩, fun read found => ?_, fun frame there => (unused.around frame there).faithful⟩
    have none : (c.network.system.worker.findRead (c.network.context (c.currentId + 1))).map
        (fun read => (read.nextChunk, read.chunkCount)) = none := congrArg Prod.snd unused.sessions
    rw [found] at none
    cases none
  obtain ⟨message, fileSize, count, chunks, reply, announced, sized, receives, content⟩ := readFile_received success
  obtain ⟨consistent', answers⟩ := consistent.receives undistracted.file
  obtain ⟨accepted, answer, sender, rfl, faithful⟩ := answers message reply
  have length := faithful.file _ _ accepted _ _ announced
  have number : count.toNat = chunkNumber b := by
    rw [chunkCount_toNat sized, length, chunkNumber]
  rw [number] at receives
  have all := receives.pieces undistracted.chunks consistent' (by simpa [number] using count.toNat_lt)
  rw [content, all, UInt32.toNat_zero, pieces_flatten, List.take_of_length_le]
  rw [chunkNumber, chunkSize]
  omega

open Dfs.System

/-- Client `"c"` has written `[5]` to `"p"`. -/
def written : System := (start.runNode uploaded).toOption.getD start

/-- Client `"d"` is about to read `"p"`. Between its two requests `"c"` opens `"q"` for writing, and then only node `"b"`
answers. -/
def onlooker : Client Service where
  network :=
    { system := written, client := [100]
      script := [[.handle 0 {} [], .arrive 2],
        [.other (.request (.writeFile { path := [113], fileSize := 1, chunkCount := 1, context := fromClient 2 })
            { first := 8 } []),
          .handle 0 {} [[], [.serve [98] [], .deliver [98]]], .arrive 3]] }
  disk := { tree := .empty, outcomes := [], trail := [], outside := fun _ => none }
  metadataNodeId := [109]
  currentId := 0

end Client

end Dfs
