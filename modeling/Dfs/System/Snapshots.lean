import Dfs.System.Standing
import Dfs.System.Matching

/-!
# Reads see one version of a file

The replies to `GET` carry ids that the worker counts, so that a handler that reads takes no reply but one to a
frame of its own, and a node that has committed the file makes such a reply from the file. A session that reads a file
which is left alone meanwhile gets the chunks of one version, whatever other clients do.
-/

namespace Dfs

open Lib

namespace Cluster

variable {c c' base : Cluster} {limit : UInt64} {node : NodeId} {frame : Frame}

/-! ## Ids of the worker's own -/

/-- The request has an id of the worker's own that is above `limit`. -/
def Above (asker : NodeIdentity) (limit : UInt64) (frame : Frame) : Prop :=
  ∃ event, StorageEvent.of (frame.from asker) = .ok event ∧ event.job ≠ .put ∧ limit < event.context.requestId

/-- Every frame under way belongs to the request with its number, and ids up to `limit` are all that these requests
have of the worker's own. -/
structure Paced (limit : UInt64) (c : Cluster) : Prop where
  traced : c.Traced
  script : ∀ acts ∈ c.script, ∀ a ∈ acts, a.Honest
  below : ∀ node, ∀ tag ∈ c.inFlight node, ∀ e, c.sent[tag]? = some e → ¬ Above c.self limit e.2

theorem Paced.mono {limit' : UInt64} (paced : c.Paced limit) (le : limit ≤ limit') : c.Paced limit' where
  traced := paced.traced
  script := paced.script
  below node tag mem e asked := by
    rintro ⟨event, read, own, above⟩
    exact paced.below node tag mem e asked ⟨event, read, own, UInt64.lt_of_le_of_lt le above⟩

/-- What is under way is under way for a request. -/
theorem Traced.asked {tag : Nat} (traced : c.Traced) (mem : tag ∈ c.inFlight node) : ∃ e, c.sent[tag]? = some e := by
  rcases mem_inFlight.1 mem with ⟨peer, found, frame, inbox | outbox⟩ | ⟨message, queued, -⟩
  · exact ⟨_, traced.inbox node peer found _ inbox⟩
  · obtain ⟨request, asked, -⟩ := traced.outbox node peer found _ outbox
    exact ⟨_, asked⟩
  · obtain ⟨request, -, asked, -⟩ := traced.queue _ queued
    exact ⟨_, asked⟩

/-- New requests may have got ids up to `limit`. -/
theorem Since.paced (since : Since base c) (paced : base.Paced limit)
    (new : ∀ tag e, base.sent.length ≤ tag → c.sent[tag]? = some e → ¬ Above base.self limit e.2) : c.Paced limit where
  traced := since.traced
  script := since.script
  below node tag mem e asked := by
    rw [since.self]
    rcases since.flight node tag mem with old | recent
    · obtain ⟨e', asked'⟩ := paced.traced.asked old
      cases asked.symm.trans (sent_found since.sent asked')
      exact paced.below node tag old e asked'
    · exact new tag e recent asked

theorem Paced.since (paced : c.Paced limit) : Since c c := .refl paced.traced paced.script

theorem Paced.send (paced : c.Paced limit) (node : NodeId) (own : ¬ Above c.self limit frame) :
    Cluster.Paced limit (Network.send node frame c) := by
  refine paced.since.send.paced paced fun tag e recent asked => ?_
  have sent : (c.send node frame).sent = c.sent ++ [(node, frame)] := c.send_sent node frame
  rw [sent, List.getElem?_append_right recent] at asked
  cases List.mem_singleton.1 (List.mem_of_getElem? asked)
  exact own

theorem Paced.acts {l : List Act} (paced : c.Paced limit) (honest : ∀ a ∈ l, a.Honest) : (c.acts l).Paced limit := by
  refine (paced.since.acts honest).paced paced fun tag e recent asked => ?_
  rw [acts_sent, List.getElem?_eq_none recent] at asked
  cases asked

theorem Paced.scripted (paced : c.Paced limit) {script : List (List Act)} (honest : ∀ acts ∈ script, ∀ a ∈ acts, a.Honest) :
    Paced limit { c with script } where
  traced := ⟨paced.traced.inbox, paced.traced.outbox, paced.traced.queue⟩
  script := honest
  below := paced.below

theorem honest_head {script : List (List Act)} (honest : ∀ acts ∈ script, ∀ a ∈ acts, a.Honest) :
    ∀ a ∈ script.headD [], a.Honest := by
  cases script with
  | nil => exact fun a mem => by cases mem
  | cons acts rest => exact honest acts List.mem_cons_self

theorem Paced.await (paced : c.Paced limit) : c.await.Paced limit :=
  (paced.scripted fun acts mem => paced.script acts (List.mem_of_mem_tail mem)).acts (honest_head paced.script)

theorem take_found {p : Message → Bool} {m : Message} (found : (c.take p).1 = some m) :
    ∃ tag, (tag, m) ∈ c.queue ∧ p m = true := by
  unfold Cluster.take popIf at found
  split at found
  · cases found
  rename_i tag message queue taken
  cases found
  obtain ⟨taken, -⟩ := Prod.mk.inj taken
  exact ⟨tag, List.mem_of_find?_eq_some taken, List.find?_some (p := fun e : Nat × Message => p e.2) taken⟩

theorem Paced.take {p : Message → Bool} (paced : c.Paced limit) : (c.take p).2.Paced limit := by
  unfold Cluster.take popIf
  split
  · exact paced
  rename_i tag message queue found
  obtain ⟨-, rfl⟩ := Prod.mk.inj found
  refine ⟨⟨paced.traced.inbox, paced.traced.outbox, fun e rest => paced.traced.queue e (List.mem_of_mem_eraseP rest)⟩,
    paced.script, fun node tag' mem => paced.below node tag' (mem_inFlight.2 ((mem_inFlight.1 mem).imp_right ?_))⟩
  rintro ⟨message', queued, sender⟩
  exact ⟨message', List.mem_of_mem_eraseP queued, sender⟩

theorem Paced.receiveIf {p : Message → Bool} (paced : c.Paced limit) (timeout : Nat) :
    Cluster.Paced limit (Network.receiveIf timeout p c).2 := paced.await.take

theorem Paced.used (paced : c.Paced limit) (used : Network.Used (fun frame => ¬ Above c.self limit frame) c c') :
    c'.Paced limit := by
  refine (used.keeps (P := fun n => n.self = c.self ∧ n.Paced limit) (fun n node frame holds own => ?_)
    (fun n timeout p holds => ?_) ⟨rfl, paced⟩).2
  · exact ⟨send_self.trans holds.1, holds.2.send node (holds.1.symm ▸ own)⟩
  · exact ⟨(take_self.trans (await_self n)).trans holds.1, holds.2.receiveIf timeout⟩

/-! ## Replies made from the file -/

/-- The reply of a worker that has committed `b`. -/
def Tells (asker : NodeIdentity) (x b : Bytes) (frame reply : Frame) : Prop :=
  ∃ (event : StorageEvent) (w : StorageWorker), StorageEvent.of (frame.from asker) = .ok event ∧ w.committed x = some b ∧
    reply = (w.handle event).1

/-- The node has committed `b`, and what is under way with the number is the frame or a reply to it made from `b`. -/
structure Telling (asker : NodeIdentity) (node : NodeId) (x b : Bytes) (tag : Nat) (frame : Frame) (peer : Peer)
    (q : List (Nat × Message)) : Prop where
  offers : Offers asker x b peer q
  inbox : ∀ e ∈ peer.inbox, e.1 = tag → e.2 = frame
  outbox : ∀ e ∈ peer.outbox, e.1 = tag → Tells asker x b frame e.2
  queue : ∀ e ∈ q, e.1 = tag → ∃ reply, e.2 = reply.from ⟨node, .storage⟩ ∧ Tells asker x b frame reply

theorem telling_truthful {asker : NodeIdentity} {x b : Bytes} {tag : Nat} :
    Truthful asker node (Telling asker node x b tag frame) where
  serve outcomes peer q telling := by
    have lasting : Lasting asker node (Offers asker x b) := offers_lasting
    have offers := lasting.serve outcomes peer q telling.offers
    rw [Cluster.serve] at offers ⊢
    split at offers
    · exact telling
    rename_i n f inbox waiting
    have rest : ∀ e ∈ inbox, e.1 = tag → e.2 = frame := fun e mem =>
      telling.inbox e (waiting ▸ List.mem_cons_of_mem _ mem)
    split at offers
    · exact ⟨offers, rest, telling.outbox, telling.queue⟩
    rename_i event read
    refine ⟨offers, rest, fun e mem same => ?_, telling.queue⟩
    rcases List.mem_append.1 mem with old | new
    · exact telling.outbox e old same
    · rw [List.mem_singleton.1 new] at same ⊢
      cases telling.inbox (n, f) (waiting ▸ List.mem_cons_self) same
      exact ⟨event, { peer.worker with disk := peer.worker.disk.withOutcomes outcomes }, read, telling.offers.worker, rfl⟩
  restart peer q telling := ⟨⟨telling.offers.worker, telling.offers.inbox⟩, telling.inbox, telling.outbox, telling.queue⟩
  deliver peer n f rest q telling outbox := by
    refine ⟨⟨telling.offers.worker, telling.offers.inbox⟩, telling.inbox, fun e mem =>
      telling.outbox e (outbox ▸ List.mem_cons_of_mem _ mem), fun e mem same => ?_⟩
    rcases List.mem_append.1 mem with old | new
    · exact telling.queue e old same
    · rw [List.mem_singleton.1 new] at same ⊢
      exact ⟨f, rfl, telling.outbox (n, f) (outbox ▸ List.mem_cons_self) same⟩
  loseRequest index peer q telling :=
    ⟨⟨telling.offers.worker, fun e mem => telling.offers.inbox e (List.mem_of_mem_eraseIdx mem)⟩,
      fun e mem => telling.inbox e (List.mem_of_mem_eraseIdx mem), telling.outbox, telling.queue⟩
  loseReply index peer q telling :=
    ⟨⟨telling.offers.worker, telling.offers.inbox⟩, telling.inbox,
      fun e mem => telling.outbox e (List.mem_of_mem_eraseIdx mem), telling.queue⟩

/-- A frame that leaves the object alone has a number of its own. -/
theorem telling_sent {x b : Bytes} (traced : c.Traced) (offers : c.At node (Offers c.self x b))
    (spares : ∀ event, StorageEvent.of (frame.from c.self) = .ok event → Spares x event) :
    (c.send node frame).At node (Telling c.self node x b c.sent.length frame) := by
  have old : ∀ tag ∈ c.inFlight node, tag ≠ c.sent.length := fun tag mem same => by
    obtain ⟨e, asked⟩ := traced.asked mem
    rw [same, List.getElem?_eq_none (Nat.le_refl _)] at asked
    cases asked
  obtain ⟨peer, found, offers⟩ := offers
  have boxes : ∀ e, e ∈ peer.inbox ∨ e ∈ peer.outbox → e.1 ≠ c.sent.length := fun e mem =>
    old e.1 (mem_inFlight.2 (.inl ⟨peer, found, e.2, mem⟩))
  have here : c.At node fun peer' q => peer' = peer ∧ q = c.held node := ⟨peer, found, rfl, rfl⟩
  refine at_send_self here fun peer' q same => ?_
  obtain ⟨rfl, rfl⟩ := same
  refine ⟨⟨offers.worker, fun e mem event read => ?_⟩, fun e mem same => ?_, fun e mem same =>
    absurd same (boxes e (.inr mem)), fun e mem same => ?_⟩
  · rcases List.mem_append.1 mem with mem | mem
    · exact offers.inbox e mem event read
    · rw [List.mem_singleton.1 mem] at read
      exact spares event read
  · rcases List.mem_append.1 mem with mem | mem
    · exact absurd same (boxes e (.inl mem))
    · rw [List.mem_singleton.1 mem]
  · obtain ⟨queued, sender⟩ := List.mem_filter.1 mem
    exact absurd same (old e.1 (mem_inFlight.2 (.inr ⟨e.2, queued, of_decide_eq_true sender⟩)))

end Cluster

namespace System

open Cluster MetadataState MetadataStore MetadataWorker

variable {s s' : System} {node replica : NodeId} {req : ReadChunkRequest} {x b : Bytes} {expected : UInt32}

/-- Between two steps: nothing is under way that a request with an id of the worker's own could be taken for. -/
def Collected (s : System) : Prop := s.network.Paced s.worker.currentStorageRequestId

theorem next_id {n : UInt64} (room : n.toNat + 1 < 2 ^ 64) : n < n + 1 :=
  UInt64.lt_iff_toNat_lt.2 (by rw [toNat_next room]; omega)

/-- A frame is sent that has the next id. -/
theorem Collected.send (collected : s.Collected) {body : Bytes} {job : StorageJob} (node : NodeId)
    (room : s.worker.currentStorageRequestId.toNat + 1 < 2 ^ 64) :
    Cluster.Paced (s.worker.currentStorageRequestId + 1)
      (Network.send node (Rpc.makeFrame (s.worker.currentStorageRequestId + 1) job .request body) s.network) := by
  refine Paced.send (collected.mono (UInt64.le_of_lt (next_id room))) node ?_
  rintro ⟨event, read, -, above⟩
  rw [(of_makeFrame read).2] at above
  exact absurd above (UInt64.lt_irrefl _)

theorem Collected.afterGet (collected : s.Collected) (room : s.worker.currentStorageRequestId.toNat + 1 < 2 ^ 64) :
    System.Collected (s.afterGet req x expected replica) :=
  Paced.receiveIf (collected.send replica room) storageRequestTimeout

/-- What a handler takes for the reply to its `GET` has been made from the file. -/
theorem Collected.getReply (collected : s.Collected) (room : s.worker.currentStorageRequestId.toNat + 1 < 2 ^ 64)
    (generated : Generated x) (offers : s.network.At replica (Offers s.network.self x b)) {m : Message}
    (got : (s.getReply req x expected replica).1 = some m) :
    ∃ reply, m = reply.from ⟨replica, .storage⟩ ∧ Tells s.network.self x b (s.getFrame req x expected) reply := by
  have read := getFrame_read generated req expected s
  let c₁ : Cluster := s.network.send replica (s.getFrame req x expected)
  have self : c₁.self = s.network.self := send_self
  have since : Since s.network c₁.await := collected.since.send.await
  have telling : c₁.await.At replica (Telling s.network.self replica x b s.network.sent.length (s.getFrame req x expected)) :=
    telling_truthful.acts (c := { c₁ with script := c₁.script.tail }) self (honest_head collected.since.send.script)
      (telling_sent collected.traced offers fun event same => by cases read.symm.trans same; exact spares_get x _)
  change (c₁.await.take (isGetReply (s.worker.currentStorageRequestId + 1) req replica)).1 = some m at got
  obtain ⟨tag, queued, accepted⟩ := take_found got
  obtain ⟨request, reply, asked, answers, same⟩ := since.traced.queue _ queued
  dsimp only at asked same
  rw [same] at accepted
  obtain ⟨sender, event, readBy, job, id⟩ := answers_accepted answers accepted
  have flight : tag ∈ c₁.await.inFlight replica := mem_inFlight.2 (.inr ⟨m, queued, sender⟩)
  have recent : s.network.sent.length ≤ tag := by
    refine (since.flight replica tag flight).resolve_left fun old => ?_
    obtain ⟨e, asked'⟩ := collected.traced.asked old
    cases asked.symm.trans (sent_found since.sent asked')
    refine collected.below replica tag old _ asked' ⟨event, since.self ▸ readBy, by rw [job]; decide, ?_⟩
    rw [id]
    exact next_id room
  have newest : tag = s.network.sent.length := by
    have sent : c₁.await.sent = s.network.sent ++ [(replica, s.getFrame req x expected)] :=
      (acts_sent _ _).trans (s.network.send_sent replica _)
    obtain ⟨bound, -⟩ := List.getElem?_eq_some_iff.1 asked
    rw [sent, List.length_append, List.length_singleton] at bound
    omega
  obtain ⟨peer, -, holds⟩ := telling
  exact holds.queue _ (List.mem_filter.2 ⟨queued, decide_eq_true sender⟩) newest

/-- A chunk that such a reply gives is the one of the file. -/
theorem tells_chunk (generated : Generated x) {reply : Frame} {sender : NodeIdentity} {data : Bytes}
    (tells : Tells s.network.self x b (s.getFrame req x expected) reply)
    (chunk : chunkIn req.chunkIndex expected (reply.from sender) = some data) :
    data = StorageWorker.slice b req.chunkIndex expected := by
  obtain ⟨event, w, read, holds, rfl⟩ := tells
  cases (getFrame_read generated req expected s).symm.trans read
  let get : GetRequest := { objectId := x, chunkIndex := req.chunkIndex, byteCount := expected
                            context := ⟨s.worker.currentStorageRequestId + 1, s.network.self⟩ }
  have short := w.handleGet_length get
  change chunkIn req.chunkIndex expected ((w.handle (.get get)).1.from sender) = some data at chunk
  rcases got : w.handleGet get with ⟨response, w'⟩
  rw [StorageWorker.handle] at chunk
  simp only [got] at chunk short
  rw [chunkIn_reply short] at chunk
  split at chunk
  · cases chunk
  rename_i fine
  cases chunk
  simp only [not_or, not_not] at fine
  obtain ⟨file, there, -, same⟩ := StorageWorker.handleGet_success got fine.1
  cases holds.symm.trans there
  exact same

theorem Collected.same (collected : s.Collected) (network : s'.network = s.network)
    (counter : s'.worker.currentStorageRequestId = s.worker.currentStorageRequestId) : s'.Collected := by
  rw [Collected, network, counter]
  exact collected

/-! ## The handlers -/

theorem onStore_counter {α : Type} {f : MetadataStore → α × MetadataStore} {r : α} (h : s.onStore f = (r, s')) :
    s'.worker.currentStorageRequestId = s.worker.currentStorageRequestId := by
  cases h
  rfl

theorem startWrite_counter {env : Env} {req : WriteFileRequest} {m : FileMetadata} {status : ClientStatus}
    (h : s.startWrite env req m = (status, s')) : s'.worker.currentStorageRequestId = s.worker.currentStorageRequestId := by
  have opened : ∀ {s₁ : System} {objectId : Bytes} {pair : NodeId × NodeId}, s₁.openWrite req objectId pair = (status, s') →
      s'.worker.currentStorageRequestId = s₁.worker.currentStorageRequestId := fun h => by
    rcases openWrite_step h with ⟨-, rfl⟩ | ⟨-, -, rfl⟩ <;> rfl
  unfold startWrite at h
  grind [onStore_counter]

theorem writeFile_counter {env : Env} {req : WriteFileRequest} {status : ClientStatus}
    (h : s.writeFile env req = (status, s')) : s'.worker.currentStorageRequestId = s.worker.currentStorageRequestId := by
  unfold MetadataState.writeFile at h
  grind [startWrite_counter]

theorem awaitPut_counter {req : WriteChunkRequest} {replica : NodeId} {r : Except Exn Bool}
    (h : s.awaitPut req replica = (r, s')) : s'.worker.currentStorageRequestId = s.worker.currentStorageRequestId := by
  unfold awaitPut MetadataState.receiveIf setBytesLeft at h
  grind

theorem awaitPuts_counter {req : WriteChunkRequest} {pair : NodeId × NodeId} {r : Except Exn Bool}
    (h : s.awaitPuts req pair = (r, s')) : s'.worker.currentStorageRequestId = s.worker.currentStorageRequestId := by
  unfold awaitPuts at h
  split at h
  · rename_i waited
    cases h
    exact awaitPut_counter waited
  · rename_i waited
    split at h <;> rename_i waited₂ <;> cases h <;> exact (awaitPut_counter waited₂).trans (awaitPut_counter waited)

theorem acceptChunk_counter {env : Env} {req : WriteChunkRequest} {write : PendingWrite} {status : ClientStatus}
    (h : s.acceptChunk env req write = (status, s')) :
    s'.worker.currentStorageRequestId = s.worker.currentStorageRequestId := by
  unfold acceptChunk at h
  dsimp only at h
  split at h <;> cases h <;> rfl

theorem writeChunk_counter {env : Env} {req : WriteChunkRequest} {r : Except Exn ClientStatus}
    (h : s.writeChunk env req = (r, s')) : s'.worker.currentStorageRequestId = s.worker.currentStorageRequestId := by
  unfold MetadataState.writeChunk at h
  split at h
  · cases h
    rfl
  split at h
  · cases h
    rfl
  split at h
  · cases h
    rfl
  dsimp only at h
  split at h
  · rename_i waited
    cases h
    exact (awaitPuts_counter waited).trans rfl
  · rename_i waited
    cases h
    exact (awaitPuts_counter waited).trans rfl
  · rename_i waited
    cases h
    exact (acceptChunk_counter rfl).trans ((awaitPuts_counter waited).trans rfl)

theorem Collected.fetchChunk {nodes : List NodeId} {r : Option Bytes} (collected : s.Collected)
    (room : s.worker.currentStorageRequestId.toNat + nodes.length < 2 ^ 64)
    (h : s.fetchChunk req x expected nodes = (r, s')) : s'.Collected := by
  induction nodes generalizing s with
  | nil =>
      cases h
      exact collected
  | cons node rest ih =>
      rw [List.length_cons] at room
      cases available : s.worker.isAvailable node with
      | false =>
          rw [fetchChunk_unavailable available] at h
          exact ih collected (by omega) h
      | true =>
          have one : s.worker.currentStorageRequestId.toNat + 1 < 2 ^ 64 := by omega
          have counted : (MetadataState.afterGet req x expected node s).worker.currentStorageRequestId.toNat =
              s.worker.currentStorageRequestId.toNat + 1 := toNat_next one
          rw [fetchChunk_available available] at h
          split at h
          · exact ih (collected.afterGet one) (by omega) h
          · cases h
            exact collected.afterGet one

theorem Collected.awaitDelete (collected : s.Collected) (id : UInt64) (replica : NodeId) :
    System.Collected (s.awaitDelete id replica).2 := by
  have received : System.Collected
      (s.receiveIf (Rpc.makeMessageIs id StorageJob.delete .response replica Rpc.matchAnyBody)).2 :=
    Paced.receiveIf collected storageRequestTimeout
  unfold MetadataState.awaitDelete
  split <;> rename_i found <;> rw [found] at received
  · exact received
  · split <;> exact received

theorem Collected.removeObject {req : RemoveRequest} {m : FileMetadata} {status : ClientStatus} (collected : s.Collected)
    (room : s.worker.currentStorageRequestId.toNat + 1 < 2 ^ 64) (h : s.removeObject req m = (status, s')) : s'.Collected := by
  have first : Cluster.Paced (s.worker.currentStorageRequestId + 1) (Network.send m.replicaLocations.1
      (StorageProtocol.encodeDeleteRequest (s.worker.currentStorageRequestId + 1)
        { objectId := m.objId, context := req.context }) s.network) := collected.send _ room
  have sent : System.Collected (((({ s with
      worker := { s.worker with currentStorageRequestId := s.worker.currentStorageRequestId + 1 } } : System).send
        m.replicaLocations.1 (StorageProtocol.encodeDeleteRequest (s.worker.currentStorageRequestId + 1)
          { objectId := m.objId, context := req.context })).send m.replicaLocations.2
        (StorageProtocol.encodeDeleteRequest (s.worker.currentStorageRequestId + 1)
          { objectId := m.objId, context := req.context }))) := by
    refine first.send m.replicaLocations.2 ?_
    rintro ⟨event, read, -, above⟩
    rw [(of_makeFrame read).2] at above
    exact absurd above (UInt64.lt_irrefl _)
  unfold MetadataState.removeObject at h
  dsimp only at h
  have waited := (sent.awaitDelete (s.worker.currentStorageRequestId + 1) m.replicaLocations.1).awaitDelete
    (s.worker.currentStorageRequestId + 1) m.replicaLocations.2
  split at h <;> cases h
  · exact waited
  · exact waited.same rfl rfl

theorem Collected.remove {req : RemoveRequest} {status : ClientStatus} (collected : s.Collected)
    (room : s.worker.currentStorageRequestId.toNat + 1 < 2 ^ 64) (h : s.remove req = (status, s')) : s'.Collected := by
  unfold MetadataState.remove at h
  split at h
  · cases h
    exact collected
  split at h
  · cases h
    exact collected.same rfl rfl
  · cases h
    exact collected
  dsimp only at h
  split at h
  · cases h
    exact collected
  split at h
  · cases h
    exact collected.same rfl rfl
  split at h
  · exact collected.removeObject room h
  · cases h
    exact collected

theorem Collected.writeChunk {env : Env} {req : WriteChunkRequest} {status : ClientStatus} (collected : s.Collected)
    (h : s.writeChunk env req = (.ok status, s')) : s'.Collected := by
  have used : Network.Used (fun frame => ¬ Above s.network.self s.worker.currentStorageRequestId frame) s.network
      (s.writeChunk env req).2.network :=
    writeChunk_used env .refl fun write found due => by
      rintro ⟨event, read, own, -⟩
      exact own (of_makeFrame read).1
  rw [h] at used
  rw [Collected, writeChunk_counter h]
  exact Paced.used collected used

theorem Collected.readChunk {req : ReadChunkRequest} {answer : ClientStatus × Bytes} (collected : s.Collected)
    (room : s.worker.currentStorageRequestId.toNat + 2 < 2 ^ 64) (h : s.readChunk req = (answer, s')) : s'.Collected := by
  unfold MetadataState.readChunk at h
  split at h
  · cases h
    exact collected
  split at h
  · cases h
    exact collected.same rfl rfl
  dsimp only at h
  split at h <;> rename_i fetched <;> cases h
  · exact (collected.fetchChunk (by simpa using room) fetched).same rfl rfl
  · refine (collected.fetchChunk (by simpa using room) fetched).same rfl ?_
    dsimp only
    split <;> rfl

/-- The worker's own ids do not run out at the step. -/
def Counted (s : System) : SystemEvent → Prop
  | .request (.readChunk _) _ _ | .request (.remove _) _ _ => s.worker.currentStorageRequestId.toNat + 2 < 2 ^ 64
  | _ => True

instance (s : System) (e : SystemEvent) : Decidable (s.Counted e) := by
  unfold Counted
  split <;> infer_instance

theorem Collected.handled {env : Env} {event : ClientEvent} {script : List (List Act)} {status : ClientStatus}
    (collected : s.Collected) (counted : s.Counted (.request event env script))
    (handled : MetadataState.Handled env s event status s') : s'.Collected := by
  cases handled with
  | createFile req r _ run => exact collected.same (onStore_network run) (onStore_counter run)
  | writeFile req _ _ run => exact collected.same (writeFile_step run).1 (writeFile_counter run)
  | writeChunk req _ _ run => exact collected.writeChunk run
  | readFile req answer _ run =>
      cases readFile_does run with
      | refused _ bad => exact collected
      | empty m found none => exact collected
      | opened m found some free => exact collected.same rfl rfl
  | readChunk req answer _ run => exact collected.readChunk counted run
  | remove req _ _ run => exact collected.remove (Nat.lt_of_succ_lt counted) run
  | list req r _ _ run => exact collected.same (onStore_network run) (onStore_counter run)
  | makeDir req r _ run => exact collected.same (onStore_network run) (onStore_counter run)
  | rename req r _ run => exact collected.same (onStore_network run) (onStore_counter run)
  | stat req _ _ run =>
      rcases run with rfl | ⟨r, run⟩
      · exact collected
      · exact collected.same (onStore_network run) (onStore_counter run)

/-! ## One chunk -/

/-- The chunk that is fetched, whichever replica sends it, is the one of the file. -/
theorem Collected.fetched {nodes : List NodeId} {data : Bytes} (collected : s.Collected) (generated : Generated x)
    (room : s.worker.currentStorageRequestId.toNat + nodes.length < 2 ^ 64)
    (offers : ∀ node ∈ nodes, s.network.At node (Offers s.network.self x b))
    (h : s.fetchChunk req x expected nodes = (some data, s')) : data = StorageWorker.slice b req.chunkIndex expected := by
  induction nodes generalizing s with
  | nil => cases h
  | cons node rest ih =>
      rw [List.length_cons] at room
      have others : ∀ node ∈ rest, s.network.At node (Offers s.network.self x b) := fun node mem =>
        offers node (List.mem_cons_of_mem _ mem)
      cases available : s.worker.isAvailable node with
      | false =>
          rw [fetchChunk_unavailable available] at h
          exact ih collected (by omega) others h
      | true =>
          have here := offers node List.mem_cons_self
          have one : s.worker.currentStorageRequestId.toNat + 1 < 2 ^ 64 := by omega
          rw [fetchChunk_available available] at h
          cases got : (s.getReply req x expected node).1.bind (chunkIn req.chunkIndex expected) with
          | none =>
              rw [got] at h
              have unchanged := afterGet_unchanged generated (joined_of_at here) req expected
              have counted : (MetadataState.afterGet req x expected node s).worker.currentStorageRequestId.toNat =
                  s.worker.currentStorageRequestId.toNat + 1 := toNat_next one
              refine ih (collected.afterGet one) (by omega) (fun n mem => ?_) h
              rw [unchanged.self]
              exact unchanged.offers n x b (others n mem)
          | some chunk =>
              rw [got] at h
              cases h
              obtain ⟨m, reply, chunkIn⟩ := Option.bind_eq_some_iff.1 got
              obtain ⟨frame, rfl, tells⟩ := collected.getReply one generated here reply
              exact tells_chunk generated tells chunkIn

/-! ## Runs -/

/-- What a client is told of the file with the object `x` is told from `b`. -/
def Informs (x b : Bytes) (s : System) : SystemEvent → Prop
  | .request (.readFile req) env script => ∀ m, s.worker.store.data.lookup (key req.path) = some m → m.objId = x →
      ∀ fileSize chunkCount s', (s.prepared env script).readFile req = ((.success, fileSize, chunkCount), s') →
        fileSize.toNat = b.length ∧ chunkCount = (chunksOf fileSize).toUInt32
  | .request (.readChunk req) env script => ∀ read, s.worker.findRead req.context = some read → read.objectId = x →
      ∀ data s', (s.prepared env script).readChunk req = ((.success, data), s') →
        req.chunkIndex = read.nextChunk ∧ data = piece b req.chunkIndex.toNat
  | _ => True

/-- A step that leaves the file alone, with storage nodes that make up no replies. -/
structure Unobtrusive (x : Bytes) (s : System) (e : SystemEvent) : Prop where
  leaves : s.LeavesAlone x (.step e)
  honest : Honest e
  counted : s.Counted e

instance : DecidablePred Act.Honest := fun a => by
  unfold Act.Honest
  split <;> infer_instance

instance (e : SystemEvent) : Decidable (Honest e) :=
  match e with
  | .request _ _ script => decidable_of_iff (script.all fun acts => acts.all fun a => decide a.Honest) (by simp [Honest])
  | .storage acts => decidable_of_iff (acts.all fun a => decide a.Honest) (by simp [Honest])
  | .heartbeat _ _ | .checkTimeouts _ => .isTrue trivial

instance (x : Bytes) (s : System) (e : SystemEvent) : Decidable (Unobtrusive x s e) :=
  decidable_of_iff (s.LeavesAlone x (.step e) ∧ Honest e ∧ s.Counted e)
    ⟨fun h => ⟨h.1, h.2.1, h.2.2⟩, fun h => ⟨h.leaves, h.honest, h.counted⟩⟩

/-- The file stands, and whatever reads it is told so. -/
structure Watched (k : FilePath) (x b : Bytes) (replicas : NodeId × NodeId) (s : System) : Prop where
  reached : s.Reached
  sessions : s.worker.SessionsSound
  standing : s.Standing k x b replicas
  collected : s.Collected

variable {k : FilePath} {replicas : NodeId × NodeId} {e : SystemEvent} {events : List SystemEvent}

theorem Collected.prepared {env : Env} {script : List (List Act)} (collected : s.Collected)
    (honest : ∀ acts ∈ script, ∀ a ∈ acts, a.Honest) : (s.prepared env script).Collected := Paced.scripted collected honest

theorem next_collected (collected : s.Collected) (honest : Honest e) (counted : s.Counted e) (h : s.next e = .ok s') :
    s'.Collected := by
  cases e with
  | request event env script =>
      obtain ⟨status, frame, s₁, handled, ⟨rest, rfl⟩, rfl⟩ := handle_handled (next_request h)
      have counted' : (s.prepared env script).Counted (.request event env script) := by cases event <;> exact counted
      have after : System.Collected s₁ := (collected.prepared honest).handled counted' handled
      refine Paced.send after event.context.sender.id ?_
      rintro ⟨event', read, -⟩
      exact of_clientFrame read
  | storage acts =>
      cases h
      exact Paced.acts collected honest
  | heartbeat now sender =>
      cases h
      exact collected.same rfl rfl
  | checkTimeouts now =>
      cases h
      exact collected.same rfl rfl

theorem Watched.next (watched : s.Watched k x b replicas) (heard : e.From NodeClean) (unobtrusive : Unobtrusive x s e)
    (h : s.next e = .ok s') : s'.Watched (s.carriedBy k (.step e)) x b replicas where
  reached := nextNode_reached (e := .step e) watched.reached heard h
  sessions := by
    have known : Known (· ≠ []) s.worker := fun node mem => (watched.reached.removable.sturdy.known node mem).1
    exact next_sessions watched.sessions known h
  standing := nextNode_standing (e := .step e) watched.standing watched.reached.removable.sturdy
    watched.reached.removable.generated unobtrusive.leaves h
  collected := next_collected watched.collected unobtrusive.honest unobtrusive.counted h

/-- A `ReadFile` tells the size of the file, and a `ReadChunk` gives a chunk of it. -/
theorem Watched.informs (watched : s.Watched k x b replicas) (unobtrusive : Unobtrusive x s e) : Informs x b s e := by
  cases e with
  | request event env script =>
      cases event with
      | readFile req =>
          intro m found same fileSize chunkCount s' run
          obtain ⟨m₀, found₀, object, length, -⟩ := watched.standing.custody.record
          cases watched.standing.custody.owns.records _ m found same
          cases found.symm.trans found₀
          cases readFile_does run with
          | refused _ bad => exact absurd rfl bad
          | empty m' found' none =>
              cases found.symm.trans found'
              exact ⟨length, rfl⟩
          | opened m' found' some free =>
              cases found.symm.trans found'
              exact ⟨length, rfl⟩
      | readChunk req =>
          intro read found same data s' run
          subst same
          cases readChunk_does run with
          | refused _ _ bad => exact absurd rfl bad
          | fetched read' found' index below data s₁ _ fetched reads =>
              cases found.symm.trans found'
              obtain ⟨length, first, second⟩ := watched.standing.reads _ read found rfl
              have session := watched.sessions.reads _ _ read found
              have room : (s.prepared env script).worker.currentStorageRequestId.toNat +
                  [read.replicas.1, read.replicas.2].length < 2 ^ 64 := unobtrusive.counted
              have collected : (s.prepared env script).Collected := watched.collected.prepared unobtrusive.honest
              have offers : ∀ node ∈ [read.replicas.1, read.replicas.2],
                  (s.prepared env script).network.At node (Offers (s.prepared env script).network.self read.objectId b) := by
                simpa using ⟨first, second⟩
              have slice := collected.fetched watched.standing.generated room offers fetched
              rw [index] at slice ⊢
              exact ⟨rfl, slice.trans (slice_expected session.exact length).2⟩
      | _ => trivial
  | _ => trivial

theorem run_informs (watched : s.Watched k x b replicas) (heard : ∀ e ∈ events, e.From NodeClean)
    (along : Along next (Unobtrusive x) s events) : Along next (Informs x b) s events := by
  induction events generalizing s k with
  | nil => trivial
  | cons e events ih =>
      refine ⟨watched.informs along.1, fun s' stepped => ?_⟩
      exact ih (watched.next (heard e List.mem_cons_self) along.1 stepped)
        (fun e' mem => heard e' (List.mem_cons_of_mem _ mem)) (along.2 s' stepped)

theorem nextNode_sessions {e : NodeEvent} (sessions : s.worker.SessionsSound) (known : Known (· ≠ []) s.worker)
    (h : s.nextNode e = .ok s') : s'.worker.SessionsSound := by
  cases e with
  | step e => exact next_sessions sessions known h
  | restart outcomes => exact (restarted_fresh h).sound
  | crash event env script point outcomes => exact (restarted_fresh h).sound

/-- Nothing is under way. -/
def still (s : System) : Bool :=
  s.network.queue.isEmpty && s.network.script.isEmpty &&
    !(Assoc.any s.network.peers fun _ peer => !(peer.inbox.isEmpty && peer.outbox.isEmpty))

theorem collected_of_still (h : s.still = true) : s.Collected := by
  simp only [still, Bool.and_eq_true, Bool.not_eq_true', List.isEmpty_iff] at h
  obtain ⟨⟨queue, script⟩, boxes⟩ := h
  have empty : ∀ node peer, s.network.peers.lookup node = some peer → peer.inbox = [] ∧ peer.outbox = [] := by
    intro node peer found
    by_contra some
    have any := (Assoc.any_iff s.network.peers fun _ peer => !(peer.inbox.isEmpty && peer.outbox.isEmpty)).2
      ⟨node, peer, found, by simpa [Classical.or_iff_not_imp_left] using some⟩
    rw [boxes] at any
    cases any
  have traced : s.network.Traced :=
    { inbox := fun node peer found e mem => by simp [(empty node peer found).1] at mem
      outbox := fun node peer found e mem => by simp [(empty node peer found).2] at mem
      queue := fun e mem => by simp [queue] at mem }
  refine ⟨traced, fun acts mem => by simp [script] at mem, fun node tag mem => ?_⟩
  rcases mem_inFlight.1 mem with ⟨peer, found, frame, inbox | outbox⟩ | ⟨message, queued, -⟩
  · simp [(empty node peer found).1] at inbox
  · simp [(empty node peer found).2] at outbox
  · simp [queue] at queued

variable {s₀ : System} {earlier : List NodeEvent}

theorem run_reached {u : System} {events : List NodeEvent} (reached : s.Reached) (sessions : s.worker.SessionsSound)
    (heard : ∀ e ∈ events, e.From NodeClean) (ran : s.runNode events = .ok u) : u.Reached ∧ u.worker.SessionsSound :=
  run_keeps (P := fun s => s.Reached ∧ s.worker.SessionsSound)
    (fun _ _ e mem holds stepped => ⟨nextNode_reached holds.1 (heard e mem) stepped,
      nextNode_sessions holds.2 (fun node there => (holds.1.removable.sturdy.known node there).1) stepped⟩)
    ⟨reached, sessions⟩ ran

theorem reached_of_run (blank : s₀.Blank) (ordinary : s₀.network.Ordinary) (heard : ∀ e ∈ earlier, e.From NodeClean)
    (before : s₀.runNode earlier = .ok s) : s.Reached ∧ s.worker.SessionsSound :=
  run_reached (blank.reached ordinary) blank.fresh.sound heard before

theorem watched_of_run (blank : s₀.Blank) (ordinary : s₀.network.Ordinary) (heard : ∀ e ∈ earlier, e.From NodeClean)
    (before : s₀.runNode earlier = .ok s) (collected : s.Collected) (standing : s.Standing k x b replicas) :
    s.Watched k x b replicas := by
  obtain ⟨reached, sessions⟩ := reached_of_run blank ordinary heard before
  exact ⟨reached, sessions, standing, collected⟩

/-- Client `"d"` starts to read `"p"`, `"c"` starts to write two chunks to it and sends the first one, then `"d"` gets
its chunk from node `"b"` while node `"a"` is silent. -/
def readWhileWritten : List SystemEvent :=
  [.request (.readFile { path := [112], context := ⟨1, ⟨[100], .client⟩⟩ }) {} [],
    .request (.writeFile { path := [112], fileSize := 524289, chunkCount := 2, context := fromClient 2 }) { first := 8 } [],
    .request (.readChunk { chunkIndex := 0, context := ⟨1, ⟨[100], .client⟩⟩ }) {} [[], [.serve [98] [], .deliver [98]]]]

end System

end Dfs
